import Mathlib.Data.List.Basic
import Mathlib.Logic.Function.Basic
import Vici2.Runs

/-! The pool of connections to the FreeSWITCH nodes. The health loop, the reconnect
loops, the dials and the reloads are goroutines; each section under a lock and each
access to the database is a step. -/

namespace Vici2

namespace Affinity

inductive NodeStatus
  | active
  | draining
  | unhealthy
  | offline
  deriving DecidableEq, Repr

structure NodeConfig where
  nodeID : Int
  host : String
  port : Int
  password : String
  weight : Int
  status : NodeStatus
  deriving DecidableEq, Repr

def minInt : Int := -9223372036854775808

def maxInt : Int := 9223372036854775807

/-- `strconv.Atoi`: the value, which an error leaves at 0 or at the bound it passed, and
whether there was none. -/
def atoi (s : String) : Int × Bool :=
  let (negative, ds) := match s.toList with
    | '-' :: ds => (true, ds)
    | '+' :: ds => (false, ds)
    | ds => (false, ds)
  if ds = [] ∨ ¬ ds.all Char.isDigit then (0, false)
  else
    let n : Int := (ds.foldl (fun n c => 10 * n + (c.toNat - 48)) 0 : Nat)
    let v := if negative then -n else n
    if v < minInt then (minInt, false) else if v > maxInt then (maxInt, false) else (v, true)

inductive RouterError
  | nodeUnavailable (nodeID : Int)
  | nodeNotFound
  | dbLookup (error : String)
  deriving DecidableEq, Repr

/-- The node of a campaign: the cached one, or the one of its row. -/
def resolveNodeID (cached : Option String) (row : Except String (Option (Option Int))) :
    Except RouterError Int :=
  let fromDb : Except RouterError Int := match row with
    | .error e => .error (.dbLookup e)
    | .ok (some (some nodeID)) => .ok nodeID
    | .ok _ => .error .nodeNotFound
  match cached with
  | none => fromDb
  | some val =>
    if val = "" then fromDb
    else
      let (id, ok) := atoi val
      if ok ∧ id > 0 then .ok id else fromDb

structure ManagedConn where
  nodeID : Int
  cfg : NodeConfig
  client : Option Nat
  healthy : Bool
  failCount : Nat
  reconnecting : Bool
  deriving DecidableEq, Repr

def ManagedConn.new (cfg : NodeConfig) : ManagedConn := ⟨cfg.nodeID, cfg, none, false, 0, false⟩

def ManagedConn.isHealthy (mc : ManagedConn) : Bool := mc.healthy ∧ mc.client ≠ none

def cfgChanged (old new : NodeConfig) : Bool :=
  old.host ≠ new.host ∨ old.port ≠ new.port ∨ old.password ≠ new.password

/-- The sweep of the health loop over the connections: nothing is under way, the
heartbeat of the next one is, or its failure has been counted up to the limit. -/
inductive HealthLoop
  | sweep (todo : List Nat)
  | beating (conn : Nat) (connected : Bool) (todo : List Nat)
  | tripped (conn : Nat) (todo : List Nat)
  deriving DecidableEq, Repr

/-- A reconnect loop that was started, that tries, or that has succeeded and is about
to return. -/
inductive ReconnectStage
  | started
  | trying
  | leaving
  deriving DecidableEq, Repr

/-- A call of `ConnFor` that has found the connection of its node, and then has found
it healthy. -/
structure Call where
  nodeID : Int
  conn : Nat
  checked : Bool
  deriving DecidableEq, Repr

/-- The router with its goroutines. Connections are named by their place in `heap`. A
reload that holds the lock has nodes left to remove and to add. `marked` are the nodes
that the router has marked and no reload has read as active since. -/
structure Router where
  db : List NodeConfig
  conns : Int → Option Nat
  heap : List ManagedConn
  loads : List (List NodeConfig)
  reloading : Option (List Int × List NodeConfig)
  dialing : List Nat
  health : HealthLoop
  marking : List Int
  reconnects : List (Nat × ReconnectStage)
  calls : List Call
  marked : List Int

/-- `NewRouter`, before its first reload. -/
def Router.start (db : List NodeConfig) : Router :=
  ⟨db, fun _ => none, [], [], none, [], .sweep [], [], [], [], []⟩

inductive Action
  | setNode (row : NodeConfig)
  | deleteNode (nodeID : Int)
  | loadNodes
  | reload (i : Nat)
  | reloadNode
  | dialNode (i : Nat) (client : Option Nat)
  | tick (order : List Int)
  | heartbeat
  | heartbeatDone (up : Bool)
  | trip
  | markNodeUnhealthy (i : Nat) (updated : Bool)
  | reconnectStart (i : Nat)
  | reconnectAttempt (i : Nat) (client : Option Nat)
  | reconnectDone (i : Nat)
  | connFor (cached : Option String) (row : Except String (Option (Option Int)))
  | checkHealthy (i : Nat)
  | takeClient (i : Nat)

def Router.setConn (r : Router) (p : Nat) (f : ManagedConn → ManagedConn) : Router :=
  { r with heap := r.heap.modify p f }

/-- A node that is gone or OFFLINE loses its connection. -/
def Router.removeNode (r : Router) (nodeID : Int) : Router :=
  match r.conns nodeID with
  | none => r
  | some p =>
    { r.setConn p fun mc => { mc with client := none } with
      conns := Function.update r.conns nodeID none }

/-- A new node is dialled; one with changed parameters loses its connection and is
dialled again. -/
def Router.addNode (r : Router) (cfg : NodeConfig) : Router :=
  match r.conns cfg.nodeID with
  | none =>
    { r with
      heap := r.heap ++ [.new cfg]
      conns := Function.update r.conns cfg.nodeID (some r.heap.length)
      dialing := r.dialing ++ [r.heap.length] }
  | some p =>
    match r.heap[p]? with
    | none => r
    | some existing =>
      if cfgChanged existing.cfg cfg then
        { r.setConn p fun mc => { mc with cfg := cfg, client := none, healthy := false } with
          dialing := r.dialing ++ [p] }
      else r.setConn p fun mc => { mc with cfg := cfg }

/-- `Reload` takes the lock with the nodes it has read. -/
def Router.beginReload (r : Router) (nodes : List NodeConfig) : Router :=
  let active := nodes.filter fun n => n.status ≠ .offline
  let stale := (r.heap.map ManagedConn.nodeID).dedup.filter fun id =>
    r.conns id ≠ none ∧ ¬ active.any fun n => n.nodeID = id
  { r with reloading := some (stale, active) }

def Router.reloadNode (r : Router) : Router :=
  match r.reloading with
  | none => r
  | some (id :: stale, active) => { r.removeNode id with reloading := some (stale, active) }
  | some ([], cfg :: active) => { r.addNode cfg with reloading := some ([], active) }
  | some ([], []) => { r with reloading := none }

/-- Three heartbeats in a row have failed. -/
def Router.trip (r : Router) (p : Nat) (todo : List Nat) : Router :=
  match r.heap[p]? with
  | none => { r with health := .sweep todo }
  | some mc =>
    let r := { r.setConn p fun mc => { mc with healthy := false } with health := .sweep todo }
    if mc.healthy then
      { r with
        marking := r.marking ++ [mc.nodeID]
        reconnects := r.reconnects ++ [(p, .started)] }
    else r

/-- The result of a heartbeat, which fails without a client. -/
def Router.heartbeatDone (r : Router) (p : Nat) (up : Bool) (todo : List Nat) : Router :=
  if up then
    { r.setConn p fun mc => { mc with failCount := 0, healthy := true } with health := .sweep todo }
  else
    let count := (r.heap[p]?.map ManagedConn.failCount).getD 0 + 1
    { r.setConn p fun mc => { mc with failCount := mc.failCount + 1 } with
      health := if count ≥ 3 then .tripped p todo else .sweep todo }

def step (r : Router) : Action → Router
  | .setNode row =>
    { r with db := r.db.filter (fun n => n.nodeID ≠ row.nodeID) ++ [row] }
  | .deleteNode nodeID => { r with db := r.db.filter fun n => n.nodeID ≠ nodeID }
  | .loadNodes =>
    let nodes := r.db.filter fun n => n.status ≠ .offline
    { r with
      loads := r.loads ++ [nodes]
      marked := r.marked.filter fun id =>
        ¬ nodes.any fun n => n.nodeID = id ∧ n.status = .active }
  | .reload i =>
    match r.loads[i]?, r.reloading with
    | some nodes, none => { r.beginReload nodes with loads := r.loads.eraseIdx i }
    | _, _ => r
  | .reloadNode => r.reloadNode
  | .dialNode i client =>
    match r.dialing[i]? with
    | none => r
    | some p =>
      let r := { r with dialing := r.dialing.eraseIdx i }
      match client with
      | none => r
      | some c => r.setConn p fun mc => { mc with client := some c, healthy := true, failCount := 0 }
  | .tick order =>
    match r.health, r.reloading with
    | .sweep [], none => { r with health := .sweep (order.filterMap r.conns) }
    | _, _ => r
  | .heartbeat =>
    match r.health with
    | .sweep (p :: todo) =>
      { r with health := .beating p (r.heap[p]?.any fun mc => mc.client ≠ none) todo }
    | _ => r
  | .heartbeatDone up =>
    match r.health with
    | .beating p connected todo => r.heartbeatDone p (connected && up) todo
    | _ => r
  | .trip =>
    match r.health with
    | .tripped p todo => r.trip p todo
    | _ => r
  | .markNodeUnhealthy i updated =>
    match r.marking[i]? with
    | none => r
    | some id =>
      let r := { r with marking := r.marking.eraseIdx i }
      if updated then
        { r with
          db := r.db.map fun n => if n.nodeID = id then { n with status := .unhealthy } else n
          marked := id :: r.marked }
      else r
  | .reconnectStart i =>
    match r.reconnects[i]? with
    | some (p, .started) =>
      if r.heap[p]?.any fun mc => mc.reconnecting then { r with reconnects := r.reconnects.eraseIdx i }
      else
        { r.setConn p fun mc => { mc with reconnecting := true } with
          reconnects := r.reconnects.set i (p, .trying) }
    | _ => r
  | .reconnectAttempt i client =>
    match r.reconnects[i]?, client with
    | some (p, .trying), some c =>
      { r.setConn p fun mc =>
          { mc with client := some c, healthy := false, failCount := 0, reconnecting := false } with
        reconnects := r.reconnects.set i (p, .leaving) }
    | _, _ => r
  | .reconnectDone i =>
    match r.reconnects[i]? with
    | some (p, .leaving) =>
      { r.setConn p fun mc => { mc with reconnecting := false } with
        reconnects := r.reconnects.eraseIdx i }
    | _ => r
  | .connFor cached row =>
    match resolveNodeID cached row with
    | .error _ => r
    | .ok nodeID =>
      match r.conns nodeID, r.reloading with
      | some p, none => { r with calls := r.calls ++ [⟨nodeID, p, false⟩] }
      | _, _ => r
  | .checkHealthy i =>
    match r.calls[i]? with
    | none => r
    | some call =>
      if call.checked then r
      else if r.heap[call.conn]?.any ManagedConn.isHealthy then
        { r with calls := r.calls.set i { call with checked := true } }
      else { r with calls := r.calls.eraseIdx i }
  | .takeClient i =>
    match r.calls[i]? with
    | some call => if call.checked then { r with calls := r.calls.eraseIdx i } else r
    | none => r

end Affinity

end Vici2
