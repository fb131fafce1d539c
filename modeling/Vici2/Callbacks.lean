import Mathlib.Data.List.Basic
import Mathlib.Logic.Function.Basic
import Vici2.Runs

/-! Scheduled callbacks and the leads they are for: the transition table, and each
operation as a read that decides on a write and the write as one transaction. -/

namespace Vici2

namespace Callbacks

inductive CallbackStatus
  | pending
  | live
  | done
  | dead
  deriving DecidableEq, Repr

def CallbackStatus.lower : CallbackStatus → String
  | .pending => "pending"
  | .live => "live"
  | .done => "done"
  | .dead => "dead"

def CallbackStatus.Terminal (s : CallbackStatus) : Prop := s = .done ∨ s = .dead

def CallbackStatus.Open (s : CallbackStatus) : Prop := s = .pending ∨ s = .live

instance (s : CallbackStatus) : Decidable s.Terminal := inferInstanceAs (Decidable (_ ∨ _))

instance (s : CallbackStatus) : Decidable s.Open := inferInstanceAs (Decidable (_ ∨ _))

def legalTransitions : List (CallbackStatus × CallbackStatus) :=
  [(.pending, .live), (.pending, .dead), (.pending, .pending), (.live, .done), (.live, .dead),
    (.live, .pending)]

def guardTransition (old new : CallbackStatus) : Except String Unit :=
  if old = .done ∨ old = .dead then .error "callback_terminal"
  else if (old, new) ∈ legalTransitions then .ok ()
  else .error ("illegal_transition_" ++ old.lower ++ "_to_" ++ new.lower)

structure Callback where
  id : Int
  tenantId : Int
  leadId : Int
  userId : Option Int
  callbackAt : Int
  status : CallbackStatus
  deriving DecidableEq, Repr

structure Lead where
  tenantId : Int
  status : String
  deleted : Bool
  ownerUserId : Option Int
  deriving DecidableEq, Repr

/-- The two tables. Every callback has its lead, by foreign key. -/
structure Db where
  callbacks : List Callback
  nextId : Int
  leads : Int → Option Lead

inductive Role
  | superAdmin
  | admin
  | supervisor
  | agent
  | viewer
  | integrator
  deriving DecidableEq, Repr

structure AuthContext where
  uid : Int
  tenantId : Int
  role : Role
  deriving DecidableEq, Repr

def isSupervisor (auth : AuthContext) : Bool :=
  auth.role = .superAdmin ∨ auth.role = .admin ∨ auth.role = .supervisor

/-- `canCancel` and `canSnooze` -/
def canManage (auth : AuthContext) (ownerId : Option Int) : Bool :=
  isSupervisor auth || decide (ownerId = some auth.uid)

def canCancel : AuthContext → Option Int → Bool := canManage

def canSnooze : AuthContext → Option Int → Bool := canManage

def minFutureSeconds : Int := 5 * 60

def maxFutureSeconds : Int := 365 * 24 * 3600

/-- Times are milliseconds since the epoch. -/
def validateCallbackAt (ts now : Int) : Except String Unit :=
  if ts < now + minFutureSeconds * 1000 then .error "callback_too_soon"
  else if ts > now + maxFutureSeconds * 1000 then .error "callback_too_far"
  else .ok ()

structure CreateBody where
  leadId : Int
  callbackAt : Int
  agentOnly : Bool
  userId : Option Int
  deriving DecidableEq, Repr

def resolveUserId (body : CreateBody) (actor : AuthContext) : Except String (Option Int) :=
  match body.userId with
  | some userId =>
    if ¬ isSupervisor actor then .error "invalid_scope"
    else if body.agentOnly ∧ userId ≠ actor.uid then .error "invalid_scope"
    else .ok (some userId)
  | none => .ok (if body.agentOnly then some actor.uid else none)

inductive NoAnswerPolicy
  | leaveCallbk
  | reschedule24h
  | terminateNA
  deriving DecidableEq, Repr

def Db.find (db : Db) (id : Int) : Option Callback := db.callbacks.find? fun c => c.id = id

def Db.findFor (db : Db) (tenantId id : Int) : Option Callback :=
  db.callbacks.find? fun c => c.id = id ∧ c.tenantId = tenantId

/-- What an operation has decided to write, with the columns it has read. -/
inductive Write
  | create (tenantId leadId : Int) (userId : Option Int) (callbackAt : Int) (leadStatus : String)
  | snooze (id callbackAt : Int)
  | cancel (tenantId id leadId : Int)
  | promote (id leadId : Int) (userId : Option Int)
  | reschedule (id leadId callbackAt : Int)
  | terminate (id leadId : Int)
  deriving DecidableEq, Repr

def readCreate (db : Db) (actor : AuthContext) (body : CreateBody) (now : Int) :
    Except String Write :=
  match validateCallbackAt body.callbackAt now, resolveUserId body actor with
  | .error code, _ => .error code
  | .ok _, .error code => .error code
  | .ok _, .ok userId =>
    match db.leads body.leadId with
    | none => .error "lead_not_found"
    | some lead =>
      if lead.tenantId = actor.tenantId ∧ ¬ lead.deleted then
        .ok (.create actor.tenantId body.leadId userId body.callbackAt lead.status)
      else .error "lead_not_found"

def readSnooze (db : Db) (actor : AuthContext) (id callbackAt now : Int) : Except String Write :=
  match validateCallbackAt callbackAt now with
  | .error code => .error code
  | .ok _ =>
    match db.findFor actor.tenantId id with
    | none => .error "callback_not_found"
    | some cb =>
      if ¬ canSnooze actor cb.userId then .error "permission_denied"
      else
        match guardTransition cb.status .pending with
        | .error code => .error code
        | .ok _ => .ok (.snooze id callbackAt)

def readCancel (db : Db) (actor : AuthContext) (id : Int) : Except String Write :=
  match db.findFor actor.tenantId id with
  | none => .error "callback_not_found"
  | some cb =>
    if ¬ canCancel actor cb.userId then .error "permission_denied"
    else
      match guardTransition cb.status .dead with
      | .error code => .error code
      | .ok _ => .ok (.cancel actor.tenantId id cb.leadId)

/-- `onNoAnswer` up to its transaction; nothing is written for a callback that is
not LIVE or under the default policy. -/
def readNoAnswer (db : Db) (tenantId id : Int) (policy : NoAnswerPolicy) : Option Write :=
  match db.findFor tenantId id with
  | none => none
  | some cb =>
    if cb.status ≠ .live then none
    else
      match policy with
      | .leaveCallbk => none
      | .reschedule24h => some (.reschedule id cb.leadId (cb.callbackAt + 86400 * 1000))
      | .terminateNA => some (.terminate id cb.leadId)

/-- The worker takes a callback of the tenant that is due. -/
def readDue (db : Db) (tenantId id dueBy : Int) : Option Write :=
  match db.findFor tenantId id with
  | none => none
  | some cb =>
    if cb.status = .pending ∧ cb.callbackAt ≤ dueBy then some (.promote id cb.leadId cb.userId)
    else none

def Db.updateCallbacks (db : Db) (p : Callback → Prop) [DecidablePred p] (f : Callback → Callback) :
    Db :=
  { db with callbacks := db.callbacks.map fun c => if p c then f c else c }

def Db.setLead (db : Db) (leadId : Int) (f : Lead → Lead) : Db :=
  { db with leads := Function.update db.leads leadId ((db.leads leadId).map f) }

def Db.setLeadStatus (db : Db) (leadId : Int) (status : String) : Db :=
  db.setLead leadId fun lead => { lead with status := status }

def Db.setStatus (db : Db) (id : Int) (status : CallbackStatus) : Db :=
  db.updateCallbacks (fun c => c.id = id) fun c => { c with status := status }

def Db.countPending (db : Db) (tenantId leadId except : Int) : Nat :=
  db.callbacks.countP fun c =>
    c.tenantId = tenantId ∧ c.leadId = leadId ∧ c.status = .pending ∧ c.id ≠ except

def Db.countOpen (db : Db) (tenantId leadId except : Int) : Nat :=
  db.callbacks.countP fun c =>
    c.tenantId = tenantId ∧ c.leadId = leadId ∧ c.status.Open ∧ c.id ≠ except

def applyCreate (db : Db) (tenantId leadId : Int) (userId : Option Int) (callbackAt : Int)
    (leadStatus : String) : Db :=
  let cb : Callback := ⟨db.nextId, tenantId, leadId, userId, callbackAt, .pending⟩
  let db := { db with callbacks := db.callbacks ++ [cb], nextId := db.nextId + 1 }
  if db.countPending tenantId leadId cb.id = 0 ∧ leadStatus ∉ ["CBHOLD", "CALLBK"] then
    db.setLeadStatus leadId "CBHOLD"
  else db

def applyCancel (db : Db) (tenantId id leadId : Int) : Db :=
  let db := db.setStatus id .dead
  if db.countOpen tenantId leadId id = 0 then db.setLeadStatus leadId "NA" else db

def applyPromote (db : Db) (id leadId : Int) (userId : Option Int) : Db :=
  if db.callbacks.any fun c => c.id = id ∧ c.status = .pending then
    (db.updateCallbacks (fun c => c.id = id ∧ c.status = .pending)
        fun c => { c with status := .live }).setLead leadId
      fun lead => { lead with status := "CALLBK", ownerUserId := userId <|> lead.ownerUserId }
  else db

/-- The transaction of a write. -/
def Write.apply (db : Db) : Write → Db
  | .create tenantId leadId userId callbackAt leadStatus =>
    applyCreate db tenantId leadId userId callbackAt leadStatus
  | .snooze id callbackAt =>
    db.updateCallbacks (fun c => c.id = id)
      fun c => { c with callbackAt := callbackAt, status := .pending }
  | .cancel tenantId id leadId => applyCancel db tenantId id leadId
  | .promote id leadId userId => applyPromote db id leadId userId
  | .reschedule id leadId callbackAt =>
    (db.updateCallbacks (fun c => c.id = id)
      fun c => { c with callbackAt := callbackAt, status := .pending }).setLeadStatus leadId "CBHOLD"
  | .terminate id leadId => (db.setStatus id .done).setLeadStatus leadId "NA"

def bulkCancel (db : Db) (tenantId : Int) (ids : List Int) : Db :=
  db.updateCallbacks (fun c => c.id ∈ ids ∧ c.tenantId = tenantId ∧ c.status.Open)
    fun c => { c with status := .dead }

def supervisor : AuthContext := ⟨7, 1, .supervisor⟩

/-- Lead 42 of tenant 1, no callback yet. -/
def oneLead : Db := ⟨[], 1, fun id => if id = 42 then some ⟨1, "NEW", false, none⟩ else none⟩

end Callbacks

end Vici2
