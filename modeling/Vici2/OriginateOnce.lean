import Vici2.OriginateSlots
import Vici2.Runs

/-! Any number of `Originate` calls, interleaved command by command over one
`originate_audit` table. The idempotency read, the gates, the INSERT and the T01
call are separate steps, and the unique key of the table holds the attempt
together with `originated_at`, so the read alone keeps a second call out. -/

namespace Vici2

namespace OriginateOnce

open Originate Gateway

/-- One call of `Originate`, with the answers its gates and its number pool will
give it. -/
structure Call where
  req : OriginateRequest
  gates : List Gate
  poolSvc : Option (Int → Int → String → Except String PickResult) := none
  startedAt : Instant

def Call.env (c : Call) (finishedAt : Instant) : OriginateEnv :=
  ⟨none, c.poolSvc, none, c.startedAt, finishedAt⟩

inductive Stage
  | start
  | checked
  | gating (rest : List Gate) (scratch : GateScratch) (row : AuditRow)
  | blocked (block : BaseErr) (row : AuditRow)
  | inserted (scratch : GateScratch) (row : AuditRow)
  | dialled (row : AuditRow)
  | done (result : Except OriginateError OriginateResult)

/-- What a call has shown to the outside: the answer of a gate, the audit row of
an allowed attempt, the T01 originate. -/
inductive Event (ι : Type)
  | verdict (i : ι) (gate : String) (allowed : Bool)
  | inserted (i : ι) (row : AuditRow)
  | dialled (i : ι) (req : T01Request)

def Event.call {ι : Type} : Event ι → ι
  | .verdict i _ _ => i
  | .inserted i _ => i
  | .dialled i _ => i

/-- The log lists what has happened, latest first. -/
structure World (ι : Type) where
  stage : ι → Stage
  audit : List AuditRow
  nextID : Int
  store : GatewayStore
  log : List (Event ι)

/-- The answer to an INSERT. One that failed may have stored its row. -/
inductive InsertAnswer
  | ok
  | failed (msg : String)
  | unanswered (msg : String)
  deriving DecidableEq, Repr

/-- `check` reads the clock of the database; `row` chooses among the rows that
`LIMIT 1` may return, and `ok` says that the read succeeds. `gateway` is any
change of the gateway counters by others. -/
inductive Action (ι : Type)
  | check (i : ι) (now : Instant) (row : Nat) (ok : Bool)
  | prepare (i : ι)
  | gate (i : ι)
  | insert (i : ι) (answer : InsertAnswer)
  | dial (i : ι)
  | finish (i : ι) (answer : Except T01Error String) (finishedAt : Instant) (ok : Bool)
  | gateway (store : GatewayStore)

/-- `DATETIME(6)` keeps microseconds. -/
def stored (t : Instant) : Int := t / 1000

def replayWindow : Int := 35 * nsPerDay

/-- The service: whether a database is wired, and the collation of the column
`attempt_uuid`. -/
structure Service where
  db : Bool
  collate : String → String

namespace Service

variable (svc : Service)

def checkIdempotency (audit : List AuditRow) (attemptUUID : String) (now : Instant) (row : Nat) :
    Option AuditRow :=
  let found := audit.filter fun r => svc.collate r.attemptUUID = svc.collate attemptUUID ∧
    stored (now - replayWindow) ≤ stored r.originatedAt
  found[row]?.or found.head?

def duplicate (audit : List AuditRow) (row : AuditRow) : Bool :=
  audit.any fun r => svc.collate r.attemptUUID = svc.collate row.attemptUUID ∧
    stored r.originatedAt = stored row.originatedAt

end Service

def isFinal (r : AuditRow) : Bool := r.outcome ≠ some .other ∨ r.outcomeAt.isSome

/-- `finalizeAuditRow`. -/
def finalizeAuditRow (audit : List AuditRow) (a : AuditRow) : List AuditRow :=
  audit.map fun r =>
    if r.id = a.id ∧ stored r.originatedAt = stored a.originatedAt ∧ ¬ isFinal r then
      { r with
        outcome := a.outcome
        callUUID := a.callUUID
        outcomeAt := a.outcomeAt
        durationMs := a.durationMs
        errorMessage := a.errorMessage
        fsHost := a.fsHost }
    else r

/-- The audit row and the result once T01 has answered. -/
def settle (c : Call) (row : AuditRow) (finishedAt : Instant) :
    Except T01Error String → AuditRow × Except OriginateError OriginateResult
  | .error t01Err =>
    let m := mapT01Error t01Err
    (AuditRow.finalized { row with outcome := some m.1, errorMessage := some t01Err.msg }
      (c.env finishedAt),
      .error (.typed (newCarrierFailErr c.req.attemptUUID m.2.2 m.2.1 m.1)))
  | .ok callUUID =>
    (AuditRow.finalized
      { row with outcome := some .success, callUUID := some callUUID, fsHost := strPtr c.req.fsHost }
      (c.env finishedAt),
      .ok ⟨c.req.attemptUUID, callUUID, row.id, .success, ""⟩)

def replayed (c : Call) (prior : AuditRow) : Except OriginateError OriginateResult :=
  if prior.outcome = some .other then .error (.typed errInProgress)
  else .ok ⟨c.req.attemptUUID, prior.callUUID.getD "", prior.id, prior.outcome.getD .other, ""⟩

section Step

variable {ι : Type} [DecidableEq ι]

def World.goto (w : World ι) (i : ι) (stage : Stage) : World ι :=
  { w with stage := Function.update w.stage i stage }

def World.record (w : World ι) (e : Event ι) : World ι := { w with log := e :: w.log }

def World.withRow (w : World ι) (row : AuditRow) : World ι :=
  { w with audit := w.audit ++ [{ row with id := w.nextID }], nextID := w.nextID + 1 }

/-- `insertAuditRow`: the id it sets, or its error, and the table it leaves. -/
def insertAuditRow (svc : Service) (w : World ι) (row : AuditRow) (answer : InsertAnswer) :
    Except String Int × World ι :=
  if svc.duplicate w.audit row then (.error "Duplicate entry", w)
  else match answer with
    | .ok => (.ok w.nextID, w.withRow row)
    | .failed msg => (.error msg, w)
    | .unanswered msg => (.error msg, w.withRow row)

variable (svc : Service) (calls : ι → Call)

def prepared (c : Call) : Stage :=
  match pickCallerID (c.env 0) c.req with
  | .error e => .done (.error (.plain ("originate: caller-id: " ++ e)))
  | .ok (cidNum, cidName, cidSrc) =>
    .gating c.gates { callerID := cidNum, callerIDName := cidName, callerIDSource := some cidSrc }
      (newAuditRow (c.env 0) c.req cidNum cidSrc)

def checkStep (w : World ι) (i : ι) (now : Instant) (row : Nat) (ok : Bool) : World ι :=
  let c := calls i
  if c.req.attemptUUID = "" then w.goto i (.done (.error (.typed errMissingAttemptUUID)))
  else if svc.db ∧ ok then
    match svc.checkIdempotency w.audit c.req.attemptUUID now row with
    | some prior => w.goto i (.done (replayed c prior))
    | none => w.goto i .checked
  else w.goto i .checked

def gateStep (w : World ι) (i : ι) (gate : Gate) (rest : List Gate) (scratch : GateScratch)
    (row : AuditRow) : World ι :=
  match gate.check w.store (calls i).req scratch with
  | (⟨some block, patch⟩, _, store) =>
    (({ w with store := store }).record (.verdict i gate.name false)).goto i
      (.blocked block (row.applyPatch patch))
  | (⟨none, patch⟩, scratch, store) =>
    (({ w with store := store }).record (.verdict i gate.name true)).goto i
      (.gating rest scratch (row.applyPatch patch))

def insertStep (w : World ι) (i : ι) (scratch : GateScratch) (row : AuditRow)
    (answer : InsertAnswer) : World ι :=
  let row := { row with outcome := some .other }
  if svc.db then
    match insertAuditRow svc w row answer with
    | (.error e, w) => w.goto i (.done (.error (.plain ("originate: audit INSERT failed: " ++ e))))
    | (.ok id, w) =>
      (w.record (.inserted i { row with id := id })).goto i (.inserted scratch { row with id := id })
  else w.goto i (.inserted scratch row)

def insertBlockedStep (w : World ι) (i : ι) (block : BaseErr) (row : AuditRow)
    (answer : InsertAnswer) : World ι :=
  let row := { row with outcome := some block.outcome }
  let w := if svc.db then (insertAuditRow svc w row answer).2 else w
  w.goto i (.done (.error (.typed block)))

def finishStep (w : World ι) (i : ι) (row : AuditRow) (answer : Except T01Error String)
    (finishedAt : Instant) (ok : Bool) : World ι :=
  let r := settle (calls i) row finishedAt answer
  let audit := if svc.db ∧ ok then finalizeAuditRow w.audit r.1 else w.audit
  ({ w with audit := audit }).goto i (.done r.2)

def step (w : World ι) : Action ι → World ι
  | .check i now row ok =>
    match w.stage i with
    | .start => checkStep svc calls w i now row ok
    | _ => w
  | .prepare i =>
    match w.stage i with
    | .checked => w.goto i (prepared (calls i))
    | _ => w
  | .gate i =>
    match w.stage i with
    | .gating (gate :: rest) scratch row => gateStep calls w i gate rest scratch row
    | _ => w
  | .insert i answer =>
    match w.stage i with
    | .gating [] scratch row => insertStep svc w i scratch row answer
    | .blocked block row => insertBlockedStep svc w i block row answer
    | _ => w
  | .dial i =>
    match w.stage i with
    | .inserted scratch row =>
      (w.record (.dialled i (t01RequestFor (calls i).req scratch))).goto i (.dialled row)
    | _ => w
  | .finish i answer finishedAt ok =>
    match w.stage i with
    | .dialled row => finishStep svc calls w i row answer finishedAt ok
    | _ => w
  | .gateway store => { w with store := store }

def World.start (audit : List AuditRow) (nextID : Int) (store : GatewayStore) : World ι :=
  ⟨fun _ => .start, audit, nextID, store, []⟩

/-- The answers of a call's gates, latest first. -/
def verdicts (i : ι) (log : List (Event ι)) : List (String × Bool) :=
  log.filterMap fun
    | .verdict j gate allowed => if j = i then some (gate, allowed) else none
    | _ => none

def allowedBy (gates : List Gate) : List (String × Bool) :=
  (gates.map fun g => (g.name, true)).reverse

/-- Each row of an allowed attempt is inserted after all gates of its call have
allowed it, and each T01 originate is issued after the row of its call. -/
def Preceded : List (Event ι) → Prop
  | [] => True
  | .verdict _ _ _ :: earlier => Preceded earlier
  | .inserted i _ :: earlier => verdicts i earlier = allowedBy (calls i).gates ∧ Preceded earlier
  | .dialled i _ :: earlier => (∃ row, Event.inserted i row ∈ earlier) ∧ Preceded earlier

def Event.dials (attemptUUID : String) : Event ι → Bool
  | .dialled _ req => req.preSuppliedUUID = attemptUUID
  | _ => false

/-- No attempt has been dialled twice, and every attempt that has been dialled was
allowed by all gates and has its audit row. -/
structure DialledOnce (w : World ι) : Prop where
  once : ∀ attemptUUID, (w.log.filter (Event.dials attemptUUID)).length ≤ 1
  preceded : Preceded calls w.log
  named : ∀ i req, .dialled i req ∈ w.log → req.preSuppliedUUID = (calls i).req.attemptUUID
  durable : ∀ i row, .inserted i row ∈ w.log →
    ∃ r ∈ w.audit, r.id = row.id ∧ r.attemptUUID = (calls i).req.attemptUUID

/-- The call has passed its idempotency check and has not yet been blocked or
inserted its row. -/
def Stage.pending : Stage → Bool
  | .checked => true
  | .gating _ _ _ => true
  | _ => false

/-- Idempotency is checked against a wired database that answers, while no other
call of the attempt is pending and all rows of the attempt are in the replay
window. -/
def Serial (w : World ι) : Action ι → Prop
  | .check i now _ ok => w.stage i = .start → svc.db = true ∧ ok = true ∧
    (∀ j, (w.stage j).pending = true → (calls j).req.attemptUUID ≠ (calls i).req.attemptUUID) ∧
    ∀ r ∈ w.audit, r.attemptUUID = (calls i).req.attemptUUID →
      stored (now - replayWindow) ≤ stored r.originatedAt
  | _ => True

def Silent (log : List (Event ι)) (i : ι) : Prop :=
  (∀ row, .inserted i row ∉ log) ∧ ∀ req, .dialled i req ∉ log

/-- What the log says about a call in a stage. -/
def StageOk (log : List (Event ι)) (i : ι) : Stage → Prop
  | .start => Silent log i ∧ verdicts i log = []
  | .checked => Silent log i ∧ verdicts i log = []
  | .gating rest _ row => Silent log i ∧ row.attemptUUID = (calls i).req.attemptUUID ∧
    ∃ passed, (calls i).gates = passed ++ rest ∧ verdicts i log = allowedBy passed
  | .blocked _ _ => True
  | .inserted _ row => .inserted i row ∈ log ∧ ∀ req, .dialled i req ∉ log
  | .dialled _ => True
  | .done _ => True

structure Inv (w : World ι) : Prop where
  stages : ∀ i, StageOk calls w.log i (w.stage i)
  safe : DialledOnce calls w
  wired : ∀ i, (w.stage i).pending = true → svc.db = true
  alone : ∀ i j, (w.stage i).pending = true → (w.stage j).pending = true →
    (calls i).req.attemptUUID = (calls j).req.attemptUUID → i = j
  fresh : ∀ i j row, (w.stage i).pending = true → .inserted j row ∈ w.log →
    (calls j).req.attemptUUID ≠ (calls i).req.attemptUUID
  single : ∀ i j row row', .inserted i row ∈ w.log → .inserted j row' ∈ w.log →
    (calls i).req.attemptUUID = (calls j).req.attemptUUID → i = j

/-- Every row of the one table is still in the other, up to its outcome. -/
def RowsKept (audit audit' : List AuditRow) : Prop :=
  ∀ r ∈ audit, ∃ r' ∈ audit', r'.id = r.id ∧ r'.attemptUUID = r.attemptUUID

theorem rowsKept_refl (audit : List AuditRow) : RowsKept audit audit :=
  fun r hr => ⟨r, hr, rfl, rfl⟩

theorem rowsKept_finalize (audit : List AuditRow) (a : AuditRow) :
    RowsKept audit (finalizeAuditRow audit a) := by
  intro r hr
  refine ⟨_, List.mem_map_of_mem hr, ?_⟩
  split_ifs <;> simp

omit [DecidableEq ι] in
theorem rowsKept_insert (w : World ι) (row : AuditRow) (answer : InsertAnswer) :
    RowsKept w.audit (insertAuditRow svc w row answer).2.audit := by
  unfold insertAuditRow
  split
  · exact rowsKept_refl w.audit
  · cases answer with
    | ok => exact fun r hr => ⟨r, List.mem_append_left _ hr, rfl, rfl⟩
    | failed msg => exact rowsKept_refl w.audit
    | unanswered msg => exact fun r hr => ⟨r, List.mem_append_left _ hr, rfl, rfl⟩

omit [DecidableEq ι] in
theorem insertAuditRow_stage (w : World ι) (row : AuditRow) (answer : InsertAnswer) :
    (insertAuditRow svc w row answer).2.stage = w.stage ∧
      (insertAuditRow svc w row answer).2.log = w.log := by
  unfold insertAuditRow
  split
  · exact ⟨rfl, rfl⟩
  · cases answer <;> exact ⟨rfl, rfl⟩

omit [DecidableEq ι] in
theorem insertAuditRow_ok {w w' : World ι} {row : AuditRow} {answer : InsertAnswer} {id : Int}
    (h : insertAuditRow svc w row answer = (.ok id, w')) :
    id = w.nextID ∧ w' = w.withRow row := by
  unfold insertAuditRow at h
  split at h
  · simp at h
  · cases answer with
    | ok =>
      simp only [Prod.mk.injEq, Except.ok.injEq] at h
      exact ⟨h.1.symm, h.2.symm⟩
    | failed msg => simp at h
    | unanswered msg => simp at h

theorem verdicts_cons_of_ne {e : Event ι} {i : ι} (h : e.call ≠ i) (log : List (Event ι)) :
    verdicts i (e :: log) = verdicts i log := by
  cases e with
  | verdict j gate allowed =>
    have hji : j ≠ i := h
    simp [verdicts, hji]
  | inserted j row => rfl
  | dialled j req => rfl

theorem verdicts_verdict (i : ι) (gate : String) (allowed : Bool) (log : List (Event ι)) :
    verdicts i (.verdict i gate allowed :: log) = (gate, allowed) :: verdicts i log := by
  simp [verdicts]

omit [DecidableEq ι] in
theorem silent_cons_of_ne {e : Event ι} {i : ι} (h : e.call ≠ i) {log : List (Event ι)}
    (hs : Silent log i) : Silent (e :: log) i := by
  constructor
  · intro row hmem
    rcases List.mem_cons.mp hmem with rfl | hmem
    · exact h rfl
    · exact hs.1 row hmem
  · intro req hmem
    rcases List.mem_cons.mp hmem with rfl | hmem
    · exact h rfl
    · exact hs.2 req hmem

theorem stageOk_cons_of_ne {e : Event ι} {i : ι} (h : e.call ≠ i) {log : List (Event ι)}
    {stage : Stage} (hs : StageOk calls log i stage) : StageOk calls (e :: log) i stage := by
  cases stage with
  | start => exact ⟨silent_cons_of_ne h hs.1, (verdicts_cons_of_ne h log).trans hs.2⟩
  | checked => exact ⟨silent_cons_of_ne h hs.1, (verdicts_cons_of_ne h log).trans hs.2⟩
  | gating rest scratch row =>
    obtain ⟨hsilent, huuid, passed, hgates, hv⟩ := hs
    exact ⟨silent_cons_of_ne h hsilent, huuid, passed, hgates, (verdicts_cons_of_ne h log).trans hv⟩
  | blocked block row => trivial
  | inserted scratch row =>
    refine ⟨List.mem_cons_of_mem _ hs.1, fun req hmem => ?_⟩
    rcases List.mem_cons.mp hmem with rfl | hmem
    · exact h rfl
    · exact hs.2 req hmem
  | dialled row => trivial
  | done result => trivial

omit [DecidableEq ι] in
theorem silent_verdict {i j : ι} {gate : String} {allowed : Bool} {log : List (Event ι)}
    (hs : Silent log i) : Silent (.verdict j gate allowed :: log) i := by
  constructor
  · intro row hmem
    exact hs.1 row (by simpa using hmem)
  · intro req hmem
    exact hs.2 req (by simpa using hmem)

variable {svc calls}

theorem DialledOnce.rowsKept {w w' : World ι} (hw : DialledOnce calls w) (hlog : w'.log = w.log)
    (haudit : RowsKept w.audit w'.audit) : DialledOnce calls w' := by
  refine ⟨hlog ▸ hw.once, hlog ▸ hw.preceded, hlog ▸ hw.named, ?_⟩
  rw [hlog]
  intro i row hrow
  obtain ⟨r, hr, hid, huuid⟩ := hw.durable i row hrow
  obtain ⟨r', hr', hid', huuid'⟩ := haudit r hr
  exact ⟨r', hr', hid'.trans hid, huuid'.trans huuid⟩

theorem DialledOnce.verdict {w w' : World ι} (hw : DialledOnce calls w) {i : ι} {gate : String}
    {allowed : Bool} (hlog : w'.log = .verdict i gate allowed :: w.log)
    (haudit : w'.audit = w.audit) : DialledOnce calls w' := by
  refine ⟨?_, ?_, ?_, ?_⟩
  · intro attemptUUID
    have honce := hw.once attemptUUID
    rw [hlog]
    exact honce
  · rw [hlog]
    exact hw.preceded
  · rw [hlog]
    intro j req hreq
    exact hw.named j req (by simpa using hreq)
  · rw [hlog, haudit]
    intro j row hrow
    exact hw.durable j row (by simpa using hrow)

/-- A step that inserts nothing and lets no call become pending. -/
theorem Inv.sameRows {w w' : World ι} (hw : Inv svc calls w) (hsafe : DialledOnce calls w')
    (hrows : ∀ i row, .inserted i row ∈ w'.log → .inserted i row ∈ w.log)
    (hstages : ∀ i, StageOk calls w'.log i (w'.stage i))
    (hpending : ∀ i, (w'.stage i).pending = true → (w.stage i).pending = true) :
    Inv svc calls w' where
  stages := hstages
  safe := hsafe
  wired := fun i hi => hw.wired i (hpending i hi)
  alone := fun i j hi hj h => hw.alone i j (hpending i hi) (hpending j hj) h
  fresh := fun i j row hi hrow => hw.fresh i j row (hpending i hi) (hrows j row hrow)
  single := fun i j row row' hi hj h => hw.single i j row row' (hrows i row hi) (hrows j row' hj) h

theorem pending_update {w : World ι} {i : ι} {st : Stage}
    (hst : st.pending = true → (w.stage i).pending = true) (j : ι)
    (hj : (Function.update w.stage i st j).pending = true) : (w.stage j).pending = true := by
  rcases update_cases (fun st : Stage => st.pending = true) hj with ⟨rfl, hself⟩ | ⟨-, hother⟩
  · exact hst hself
  · exact hother

theorem Inv.move {w w' : World ι} (hw : Inv svc calls w) (i : ι) (st : Stage)
    (hstage : w'.stage = Function.update w.stage i st) (hlog : w'.log = w.log)
    (haudit : RowsKept w.audit w'.audit) (hok : StageOk calls w.log i st)
    (hst : st.pending = true → (w.stage i).pending = true) : Inv svc calls w' := by
  refine hw.sameRows (hw.safe.rowsKept hlog haudit) (fun j row => by rw [hlog]; exact id) ?_ ?_
  · intro j
    rw [hlog, hstage]
    by_cases hji : j = i
    · subst j
      rwa [Function.update_self]
    · rw [Function.update_of_ne hji]
      exact hw.stages j
  · intro j hj
    rw [hstage] at hj
    exact pending_update hst j hj

theorem Inv.record {w w' : World ι} (hw : Inv svc calls w) (i : ι) (st : Stage) (e : Event ι)
    (he : e.call = i) (hstage : w'.stage = Function.update w.stage i st)
    (hlog : w'.log = e :: w.log) (hsafe : DialledOnce calls w')
    (hrow : ∀ j row, e ≠ .inserted j row) (hok : StageOk calls (e :: w.log) i st)
    (hst : st.pending = true → (w.stage i).pending = true) : Inv svc calls w' := by
  refine hw.sameRows hsafe ?_ ?_ ?_
  · intro j row hmem
    rw [hlog] at hmem
    rcases List.mem_cons.mp hmem with h | h
    · exact absurd h.symm (hrow j row)
    · exact h
  · intro j
    rw [hstage, hlog]
    by_cases hj : j = i
    · subst j
      rwa [Function.update_self]
    · rw [Function.update_of_ne hj]
      exact stageOk_cons_of_ne calls (he ▸ Ne.symm hj) (hw.stages j)
  · intro j hj
    rw [hstage] at hj
    exact pending_update hst j hj

theorem Inv.check {w : World ι} (hw : Inv svc calls w) {i : ι} (hi : w.stage i = .start)
    (now : Instant) (row : Nat) (ok : Bool) (hserial : Serial svc calls w (.check i now row ok)) :
    Inv svc calls (checkStep svc calls w i now row ok) := by
  obtain ⟨hdb, rfl, halone, hwindow⟩ := hserial hi
  have hsilent : StageOk calls w.log i .start := hi ▸ hw.stages i
  simp only [checkStep, hdb, and_self, if_true]
  split_ifs with hempty
  · exact hw.move i _ rfl rfl (rowsKept_refl _) trivial fun h => by simp [Stage.pending] at h
  · split
    · exact hw.move i _ rfl rfl (rowsKept_refl _) trivial fun h => by simp [Stage.pending] at h
    · rename_i hnone
      -- no row of the attempt is in the table, so none was inserted in the run
      have hrows : ∀ r ∈ w.audit, r.attemptUUID ≠ (calls i).req.attemptUUID := by
        intro r hr huuid
        have hfound : r ∈ w.audit.filter fun r =>
            svc.collate r.attemptUUID = svc.collate (calls i).req.attemptUUID ∧
              stored (now - replayWindow) ≤ stored r.originatedAt := by
          simp [hr, huuid, hwindow r hr huuid]
        simp only [Service.checkIdempotency, Option.or_eq_none_iff, List.head?_eq_none_iff] at hnone
        rw [hnone.2] at hfound
        simp at hfound
      have hfresh : ∀ j row, .inserted j row ∈ w.log →
          (calls j).req.attemptUUID ≠ (calls i).req.attemptUUID := by
        intro j row hrow huuid
        obtain ⟨r, hr, -, hr'⟩ := hw.safe.durable j row hrow
        exact hrows r hr (hr'.trans huuid)
      have hcases : ∀ j, ((w.goto i .checked).stage j).pending = true →
          j = i ∨ (j ≠ i ∧ (w.stage j).pending = true) := by
        intro j hj
        exact (update_cases (fun st : Stage => st.pending = true) hj).imp_left And.left
      constructor
      · intro j
        by_cases hji : j = i
        · subst j
          simpa [World.goto, StageOk] using hsilent
        · simpa [World.goto, hji] using hw.stages j
      · exact hw.safe.rowsKept rfl (rowsKept_refl _)
      · exact fun _ _ => hdb
      · intro j k hj hk huuid
        rcases hcases j hj with rfl | ⟨-, hj'⟩
        · rcases hcases k hk with rfl | ⟨-, hk'⟩
          · rfl
          · exact absurd huuid.symm (halone k hk')
        · rcases hcases k hk with rfl | ⟨-, hk'⟩
          · exact absurd huuid (halone j hj')
          · exact hw.alone j k hj' hk' huuid
      · intro j k row hj hrow
        rcases hcases j hj with rfl | ⟨-, hj'⟩
        · exact hfresh k row hrow
        · exact hw.fresh j k row hj' hrow
      · exact hw.single

theorem Inv.prepare {w : World ι} (hw : Inv svc calls w) {i : ι} (hi : w.stage i = .checked) :
    Inv svc calls (w.goto i (prepared (calls i))) := by
  have hok : StageOk calls w.log i .checked := hi ▸ hw.stages i
  refine hw.move i _ rfl rfl (rowsKept_refl _) ?_ fun _ => by rw [hi]; rfl
  unfold prepared
  split
  · trivial
  · exact ⟨hok.1, rfl, [], rfl, hok.2⟩

theorem Inv.gate {w : World ι} (hw : Inv svc calls w) {i : ι} {gate : Gate} {rest : List Gate}
    {scratch : GateScratch} {row : AuditRow} (hi : w.stage i = .gating (gate :: rest) scratch row) :
    Inv svc calls (gateStep calls w i gate rest scratch row) := by
  have hok : StageOk calls w.log i (.gating (gate :: rest) scratch row) := hi ▸ hw.stages i
  obtain ⟨hsilent, huuid, passed, hgates, hv⟩ := hok
  unfold gateStep
  split
  · refine hw.record i _ _ rfl rfl rfl (hw.safe.verdict rfl rfl) (by simp) trivial fun h => ?_
    simp [Stage.pending] at h
  · refine hw.record i _ _ rfl rfl rfl (hw.safe.verdict rfl rfl) (by simp) ?_ fun _ => ?_
    · refine ⟨silent_verdict hsilent, huuid, passed ++ [gate], by simp [hgates], ?_⟩
      have hverdicts := verdicts_verdict i gate.name true w.log
      rw [hv] at hverdicts
      simpa [allowedBy] using hverdicts
    · rw [hi]
      rfl

/-- After the last gate, the INSERT of a pending call adds the only row of its
attempt. -/
theorem Inv.insertAllowed {w w' : World ι} (hw : Inv svc calls w) {i : ι} {scratch : GateScratch}
    {row : AuditRow} (hi : w.stage i = .gating [] scratch row) {row' : AuditRow}
    (hstage : w'.stage = Function.update w.stage i (.inserted scratch row'))
    (hlog : w'.log = .inserted i row' :: w.log) (haudit : w'.audit = w.audit ++ [row'])
    (huuid' : row'.attemptUUID = row.attemptUUID) : Inv svc calls w' := by
  have hok : StageOk calls w.log i (.gating [] scratch row) := hi ▸ hw.stages i
  obtain ⟨hsilent, huuid, passed, hgates, hv⟩ := hok
  rw [List.append_nil] at hgates
  have hpending : (w.stage i).pending = true := by rw [hi]; rfl
  have hcases : ∀ j, (w'.stage j).pending = true → j ≠ i ∧ (w.stage j).pending = true := by
    intro j hj
    rw [hstage] at hj
    rcases update_cases (fun st : Stage => st.pending = true) hj with ⟨-, hnot⟩ | hother
    · simp [Stage.pending] at hnot
    · exact hother
  have hmem : ∀ j r, Event.inserted j r ∈ w'.log → (j = i ∧ r = row') ∨ .inserted j r ∈ w.log := by
    intro j r h
    rw [hlog] at h
    simpa using h
  constructor
  · intro j
    rw [hstage]
    by_cases hji : j = i
    · subst j
      rw [Function.update_self, hlog]
      refine ⟨List.mem_cons_self, fun req hreq => ?_⟩
      exact hsilent.2 req (by simpa using hreq)
    · rw [Function.update_of_ne hji, hlog]
      exact stageOk_cons_of_ne calls (Ne.symm hji) (hw.stages j)
  · refine ⟨?_, ?_, ?_, ?_⟩
    · intro attemptUUID
      have honce := hw.safe.once attemptUUID
      rw [hlog]
      exact honce
    · rw [hlog]
      exact ⟨by rw [hv, hgates], hw.safe.preceded⟩
    · rw [hlog]
      intro j req hreq
      exact hw.safe.named j req (by simpa using hreq)
    · intro j r hr
      rw [haudit]
      rcases hmem j r hr with ⟨rfl, rfl⟩ | hr
      · exact ⟨r, by simp, rfl, huuid'.trans huuid⟩
      · obtain ⟨r', hr', h⟩ := hw.safe.durable j r hr
        exact ⟨r', List.mem_append_left _ hr', h⟩
  · exact fun j hj => hw.wired j (hcases j hj).2
  · exact fun j k hj hk h => hw.alone j k (hcases j hj).2 (hcases k hk).2 h
  · intro j k r hj hr hjk
    obtain ⟨hji, hj⟩ := hcases j hj
    rcases hmem k r hr with ⟨rfl, -⟩ | hr
    · exact hji (hw.alone j k hj hpending hjk.symm)
    · exact hw.fresh j k r hj hr hjk
  · intro j k r r' hj hk hjk
    rcases hmem j r hj with ⟨rfl, -⟩ | hj
    · rcases hmem k r' hk with ⟨rfl, -⟩ | hk
      · rfl
      · exact absurd hjk.symm (hw.fresh j k r' hpending hk)
    · rcases hmem k r' hk with ⟨rfl, -⟩ | hk
      · exact absurd hjk (hw.fresh k j r hpending hj)
      · exact hw.single j k r r' hj hk hjk

theorem Inv.insert {w : World ι} (hw : Inv svc calls w) {i : ι} {scratch : GateScratch}
    {row : AuditRow} (hi : w.stage i = .gating [] scratch row) (answer : InsertAnswer) :
    Inv svc calls (insertStep svc w i scratch row answer) := by
  have hdb : svc.db = true := hw.wired i (by rw [hi]; rfl)
  simp only [insertStep, hdb, if_true]
  split
  · rename_i e w' hinsert
    have hkept := rowsKept_insert svc w { row with outcome := some .other } answer
    have hsame := insertAuditRow_stage svc w { row with outcome := some .other } answer
    rw [hinsert] at hkept hsame
    have hstage : w'.stage = w.stage := hsame.1
    refine hw.move i (.done (.error (.plain ("originate: audit INSERT failed: " ++ e)))) ?_ hsame.2
      hkept trivial fun h => by simp [Stage.pending] at h
    simp only [World.goto, hstage]
  · rename_i id w' hinsert
    obtain ⟨rfl, rfl⟩ := insertAuditRow_ok svc hinsert
    exact hw.insertAllowed hi rfl rfl rfl rfl

theorem Inv.insertBlocked {w : World ι} (hw : Inv svc calls w) (i : ι) (block : BaseErr)
    (row : AuditRow) (answer : InsertAnswer) :
    Inv svc calls (insertBlockedStep svc w i block row answer) := by
  unfold insertBlockedStep
  cases hdb : svc.db with
  | false => exact hw.move i _ rfl rfl (rowsKept_refl _) trivial fun h => by simp [Stage.pending] at h
  | true =>
    have hsame := insertAuditRow_stage svc w { row with outcome := some block.outcome } answer
    refine hw.move i (.done (.error (.typed block))) ?_ hsame.2 (rowsKept_insert svc w _ answer)
      trivial fun h => by simp [Stage.pending] at h
    simp only [World.goto, if_true, hsame.1]

theorem Preceded.inserted {log : List (Event ι)} (h : Preceded calls log) {i : ι}
    {req : T01Request} (hmem : .dialled i req ∈ log) : ∃ row, Event.inserted i row ∈ log := by
  induction log with
  | nil => simp at hmem
  | cons e log ih =>
    have hcons : (∃ row, Event.inserted i row ∈ log) → ∃ row, Event.inserted i row ∈ e :: log :=
      fun ⟨row, hrow⟩ => ⟨row, List.mem_cons_of_mem _ hrow⟩
    cases e with
    | verdict j gate allowed => exact hcons (ih h (by simpa using hmem))
    | inserted j row => exact hcons (ih h.2 (by simpa using hmem))
    | dialled j req' =>
      rcases List.mem_cons.mp hmem with heq | hmem
      · obtain ⟨rfl, -⟩ := Event.dialled.inj heq
        exact hcons h.1
      · exact hcons (ih h.2 hmem)

theorem Inv.dial {w : World ι} (hw : Inv svc calls w) {i : ι} {scratch : GateScratch}
    {row : AuditRow} (hi : w.stage i = .inserted scratch row) :
    Inv svc calls ((w.record (.dialled i (t01RequestFor (calls i).req scratch))).goto i
      (.dialled row)) := by
  have hok : StageOk calls w.log i (.inserted scratch row) := hi ▸ hw.stages i
  obtain ⟨hrow, hquiet⟩ := hok
  -- a T01 originate of the same attempt has its row in the log, so it is this call's
  have hnone : w.log.filter (Event.dials (calls i).req.attemptUUID) = [] := by
    apply List.filter_eq_nil_iff.mpr
    intro e he hdials
    cases e with
    | verdict j gate allowed => simp [Event.dials] at hdials
    | inserted j r => simp [Event.dials] at hdials
    | dialled j req =>
      have huuid : req.preSuppliedUUID = (calls i).req.attemptUUID := by
        simpa [Event.dials] using hdials
      obtain ⟨r, hr⟩ := hw.safe.preceded.inserted he
      have hji := hw.single j i r row hr hrow ((hw.safe.named j req he).symm.trans huuid)
      subst hji
      exact hquiet req he
  refine hw.record i _ _ rfl rfl rfl ?_ (by simp) trivial fun h => by simp [Stage.pending] at h
  refine ⟨?_, ⟨⟨row, hrow⟩, hw.safe.preceded⟩, ?_, ?_⟩
  · intro attemptUUID
    by_cases huuid : (calls i).req.attemptUUID = attemptUUID
    · subst attemptUUID
      simp [World.goto, World.record, List.filter_cons, hnone]
      split <;> simp
    · have honce := hw.safe.once attemptUUID
      simpa [World.goto, World.record, List.filter_cons, Event.dials, t01RequestFor, huuid]
        using honce
  · intro j req hreq
    rcases List.mem_cons.mp hreq with heq | hreq
    · obtain ⟨rfl, rfl⟩ := Event.dialled.inj heq
      rfl
    · exact hw.safe.named j req hreq
  · intro j r hr
    exact hw.safe.durable j r (by simpa [World.goto, World.record] using hr)

theorem Inv.step {w : World ι} (hw : Inv svc calls w) {a : Action ι} (ha : Serial svc calls w a) :
    Inv svc calls (step svc calls w a) := by
  cases a with
  | check i now row ok =>
    simp only [OriginateOnce.step]
    split
    · rename_i hi
      exact hw.check hi now row ok ha
    · exact hw
  | prepare i =>
    simp only [OriginateOnce.step]
    split
    · rename_i hi
      exact hw.prepare hi
    · exact hw
  | gate i =>
    simp only [OriginateOnce.step]
    split
    · rename_i hi
      exact hw.gate hi
    · exact hw
  | insert i answer =>
    simp only [OriginateOnce.step]
    split
    · rename_i hi
      exact hw.insert hi answer
    · exact hw.insertBlocked i _ _ answer
    · exact hw
  | dial i =>
    simp only [OriginateOnce.step]
    split
    · rename_i hi
      exact hw.dial hi
    · exact hw
  | finish i answer finishedAt ok =>
    simp only [OriginateOnce.step]
    split
    · refine hw.move i _ rfl rfl ?_ trivial fun h => by simp [Stage.pending] at h
      simp only [finishStep, World.goto]
      split
      · exact rowsKept_finalize w.audit _
      · exact rowsKept_refl w.audit
    · exact hw
  | gateway store => exact ⟨hw.stages, ⟨hw.safe.once, hw.safe.preceded, hw.safe.named,
      hw.safe.durable⟩, hw.wired, hw.alone, hw.fresh, hw.single⟩

theorem inv_start (audit : List AuditRow) (nextID : Int) (store : GatewayStore) :
    Inv svc calls (.start audit nextID store) := by
  constructor
  · intro i
    exact ⟨⟨by simp [World.start], by simp [World.start]⟩, rfl⟩
  · exact ⟨by simp [World.start], trivial, by simp [World.start], by simp [World.start]⟩
  · simp [World.start, Stage.pending]
  · simp [World.start, Stage.pending]
  · simp [World.start]
  · simp [World.start]

/-- Where idempotency checks are serial, no attempt is dialled twice in any
interleaving of any calls. -/
theorem dialled_once_of_serial (svc : Service) (calls : ι → Call) (audit : List AuditRow)
    (nextID : Int) (store : GatewayStore) (l : List (Action ι))
    (hl : EachStep (step svc calls) (Serial svc calls) (.start audit nextID store) l) :
    Always (step svc calls) (DialledOnce calls) (.start audit nextID store) l := by
  have hinv := always_of_eachStep (fun w a hw ha => hw.step ha) (inv_start audit nextID store) hl
  exact hinv.mono fun w hw => hw.safe

end Step

def tcpaAllows : Gate :=
  .other "tcpa" fun _ scratch => (⟨none, { tcpaDecision := "ALLOW" }⟩, scratch)

/-- Two calls of one attempt, a millisecond apart. -/
def retried (i : Bool) : Call where
  req := sampleRequest
  gates := [tcpaAllows]
  startedAt := unixMilli (if i then 1001 else 1000)

def mysql : Service := ⟨true, id⟩

def throughInsert (i : Bool) : List (Action Bool) := [.prepare i, .gate i, .insert i .ok]

def lateCheck : List (Action Bool) :=
  .check false (unixMilli 1000) 0 true :: throughInsert false ++
    [.dial false, .check true (unixMilli 1001) 0 true]

theorem dialled_once_on_late_check :
    EachStep (step mysql retried) (Serial mysql retried) (.start [] 1 .empty) lateCheck ∧
      Always (step mysql retried) (DialledOnce retried) (.start [] 1 .empty) lateCheck := by
  have hserial : EachStep (step mysql retried) (Serial mysql retried) (.start [] 1 .empty)
      lateCheck := by
    refine ⟨fun _ => ⟨rfl, rfl, ?_, ?_⟩, trivial, trivial, trivial, trivial,
      fun _ => ⟨rfl, rfl, ?_, ?_⟩, trivial⟩
    · simp [World.start, Stage.pending]
    · simp [World.start]
    · intro j hj
      cases j <;> revert hj <;> decide
    · intro r hr _
      revert r hr
      decide
  exact ⟨hserial, dialled_once_of_serial mysql retried [] 1 .empty lateCheck hserial⟩

/-- Both calls read the table before either has inserted its row. -/
theorem racing_calls_dial_twice :
    ¬ Always (step mysql retried) (DialledOnce retried) (.start [] 1 .empty)
      ([.check false (unixMilli 1000) 0 true, .check true (unixMilli 1001) 0 true] ++
        throughInsert false ++ throughInsert true ++ [.dial false, .dial true]) := by
  intro h
  have honce := h.last.once sampleRequest.attemptUUID
  revert honce
  decide

end OriginateOnce

end Vici2
