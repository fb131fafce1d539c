import Vici2.EslRouter

/-! Nodes that the router has marked UNHEALTHY: what keeps `ConnFor` from handing out
their clients until a reload reads them as ACTIVE. -/

namespace Vici2

namespace Affinity

/-- The node whose client a step of `ConnFor` hands out. -/
def returned (r : Router) : Action → Option Int
  | .takeClient i =>
    match r.calls[i]? with
    | some call =>
      if call.checked ∧ (r.heap[call.conn]?.any fun mc => mc.client ≠ none) then some call.nodeID
      else none
    | none => none
  | _ => none

def AvoidsMarked (r : Router) (a : Action) : Prop := ∀ id ∈ returned r a, id ∉ r.marked

/-- No heartbeat and no dial brings a marked node back, and a node is marked while its
connections are down and no call has yet found one of them healthy. -/
def KeepsDown (r : Router) : Action → Prop
  | .heartbeatDone up =>
    match r.health with
    | .beating p connected _ => connected = true → up = true → ∀ mc ∈ r.heap[p]?, mc.nodeID ∉ r.marked
    | _ => True
  | .dialNode i (some _) => ∀ p ∈ r.dialing[i]?, ∀ mc ∈ r.heap[p]?, mc.nodeID ∉ r.marked
  | .markNodeUnhealthy i true => ∀ id ∈ r.marking[i]?,
      (∀ mc ∈ r.heap, mc.nodeID = id → mc.isHealthy = false) ∧
        ∀ call ∈ r.calls, call.nodeID = id → call.checked = false
  | _ => True

instance (r : Router) (a : Action) : Decidable (AvoidsMarked r a) :=
  inferInstanceAs (Decidable (∀ id ∈ returned r a, id ∉ r.marked))

instance (r : Router) : (a : Action) → Decidable (KeepsDown r a)
  | .heartbeatDone up =>
    match h : r.health with
    | .beating p connected _ => decidable_of_iff
        (connected = true → up = true → ∀ mc ∈ r.heap[p]?, mc.nodeID ∉ r.marked)
        (by simp only [KeepsDown, h])
    | .sweep _ => decidable_of_iff True (by simp only [KeepsDown, h])
    | .tripped _ _ => decidable_of_iff True (by simp only [KeepsDown, h])
  | .dialNode i (some _) =>
    inferInstanceAs (Decidable (∀ p ∈ r.dialing[i]?, ∀ mc ∈ r.heap[p]?, mc.nodeID ∉ r.marked))
  | .markNodeUnhealthy i true => inferInstanceAs (Decidable (∀ id ∈ r.marking[i]?,
      (∀ mc ∈ r.heap, mc.nodeID = id → mc.isHealthy = false) ∧
        ∀ call ∈ r.calls, call.nodeID = id → call.checked = false))
  | .dialNode _ none => inferInstanceAs (Decidable True)
  | .markNodeUnhealthy _ false => inferInstanceAs (Decidable True)
  | .setNode .. => inferInstanceAs (Decidable True)
  | .deleteNode .. => inferInstanceAs (Decidable True)
  | .loadNodes => inferInstanceAs (Decidable True)
  | .reload .. => inferInstanceAs (Decidable True)
  | .reloadNode => inferInstanceAs (Decidable True)
  | .tick .. => inferInstanceAs (Decidable True)
  | .heartbeat => inferInstanceAs (Decidable True)
  | .trip => inferInstanceAs (Decidable True)
  | .reconnectStart .. => inferInstanceAs (Decidable True)
  | .reconnectAttempt .. => inferInstanceAs (Decidable True)
  | .reconnectDone .. => inferInstanceAs (Decidable True)
  | .connFor .. => inferInstanceAs (Decidable True)
  | .checkHealthy .. => inferInstanceAs (Decidable True)
  | .takeClient .. => inferInstanceAs (Decidable True)

structure Inv (r : Router) : Prop where
  conns : ∀ id p, r.conns id = some p → ∃ mc, r.heap[p]? = some mc ∧ mc.nodeID = id
  calls : ∀ call ∈ r.calls, ∃ mc, r.heap[call.conn]? = some mc ∧ mc.nodeID = call.nodeID
  down : ∀ mc ∈ r.heap, mc.nodeID ∈ r.marked → mc.isHealthy = false
  checked : ∀ call ∈ r.calls, call.checked = true → call.nodeID ∉ r.marked

section Steps

variable {r : Router}

/-- A connection changes, and keeps its node; it is down if its node is marked. -/
theorem Inv.setConn (hr : Inv r) (p : Nat) {f : ManagedConn → ManagedConn}
    (hid : ∀ mc, (f mc).nodeID = mc.nodeID)
    (hdown : ∀ mc, r.heap[p]? = some mc → mc.nodeID ∈ r.marked → (f mc).isHealthy = false) :
    Inv (r.setConn p f) := by
  have hnode : ∀ (q : Nat) (id : Int), (∃ mc, r.heap[q]? = some mc ∧ mc.nodeID = id) →
      ∃ mc, (r.heap.modify p f)[q]? = some mc ∧ mc.nodeID = id := by
    rintro q id ⟨mc, hmc, hmcid⟩
    rw [List.getElem?_modify, hmc]
    refine ⟨_, rfl, ?_⟩
    split
    · rw [hid mc]
      exact hmcid
    · exact hmcid
  refine ⟨?_, ?_, ?_, hr.checked⟩
  · intro id q hq
    exact hnode q id (hr.conns id q hq)
  · intro call hcall
    exact hnode call.conn call.nodeID (hr.calls call hcall)
  · intro mc hmc hmarked
    obtain ⟨q, hq⟩ := List.mem_iff_getElem?.1 hmc
    have hq : (r.heap.modify p f)[q]? = some mc := hq
    rw [List.getElem?_modify] at hq
    obtain ⟨old, hold, rfl⟩ := Option.map_eq_some_iff.1 hq
    split
    · next hp =>
      subst hp
      rw [if_pos rfl, hid old] at hmarked
      exact hdown old hold hmarked
    · next hp =>
      rw [if_neg hp] at hmarked
      exact hr.down old (List.mem_of_getElem? hold) hmarked

theorem isHealthy_of_not_healthy {mc : ManagedConn} (h : mc.healthy = false) : mc.isHealthy = false := by
  unfold ManagedConn.isHealthy
  rw [h]
  rfl

theorem isHealthy_of_no_client {mc : ManagedConn} (h : mc.client = none) : mc.isHealthy = false := by
  unfold ManagedConn.isHealthy
  rw [h]
  simp

/-- The invariant speaks of the connections, the calls and the marks alone. -/
theorem Inv.congr {r' : Router} (hr : Inv r) (hconns : r'.conns = r.conns) (hheap : r'.heap = r.heap)
    (hcalls : r'.calls = r.calls) (hmarked : r'.marked = r.marked) : Inv r' := by
  constructor
  · rw [hconns, hheap]
    exact hr.conns
  · rw [hcalls, hheap]
    exact hr.calls
  · rw [hheap, hmarked]
    exact hr.down
  · rw [hcalls, hmarked]
    exact hr.checked

theorem Inv.subsetCalls {calls : List Call} (hr : Inv r) (h : ∀ call ∈ calls, call ∈ r.calls) :
    Inv { r with calls := calls } where
  conns := hr.conns
  calls := fun call hcall => hr.calls call (h call hcall)
  down := hr.down
  checked := fun call hcall => hr.checked call (h call hcall)

theorem Inv.removeNode (hr : Inv r) (nodeID : Int) : Inv (r.removeNode nodeID) := by
  unfold Router.removeNode
  split
  · exact hr
  · next p hp =>
    have hset : Inv (r.setConn p fun mc => { mc with client := none }) := by
      apply hr.setConn p
      · exact fun _ => rfl
      · exact fun mc _ _ => isHealthy_of_no_client rfl
    refine { hset with conns := ?_ }
    intro id q hq
    have hq : Function.update r.conns nodeID none id = some q := hq
    by_cases hid : id = nodeID
    · subst id
      rw [Function.update_self] at hq
      cases hq
    · rw [Function.update_of_ne hid] at hq
      exact hset.conns id q hq

theorem Inv.newConn (hr : Inv r) (cfg : NodeConfig) :
    Inv { r with
      heap := r.heap ++ [.new cfg]
      conns := Function.update r.conns cfg.nodeID (some r.heap.length) } := by
  have hnode : ∀ (q : Nat) (id : Int), (∃ mc, r.heap[q]? = some mc ∧ mc.nodeID = id) →
      ∃ mc, (r.heap ++ [.new cfg])[q]? = some mc ∧ mc.nodeID = id := by
    rintro q id ⟨mc, hmc, hmcid⟩
    have hlt : q < r.heap.length := (List.getElem?_eq_some_iff.1 hmc).1
    exact ⟨mc, (List.getElem?_append_left hlt).trans hmc, hmcid⟩
  refine ⟨?_, ?_, ?_, hr.checked⟩
  · intro id q hq
    dsimp only at hq ⊢
    by_cases hid : id = cfg.nodeID
    · subst id
      rw [Function.update_self] at hq
      obtain rfl := Option.some.inj hq
      exact ⟨.new cfg, List.getElem?_concat_length, rfl⟩
    · rw [Function.update_of_ne hid] at hq
      exact hnode q id (hr.conns id q hq)
  · intro call hcall
    exact hnode call.conn call.nodeID (hr.calls call hcall)
  · intro mc hmc hmarked
    rcases List.mem_append.1 hmc with hmc | hmc
    · exact hr.down mc hmc hmarked
    · obtain rfl := List.mem_singleton.1 hmc
      rfl

theorem Inv.addNode (hr : Inv r) (cfg : NodeConfig) : Inv (r.addNode cfg) := by
  unfold Router.addNode
  split
  · exact (hr.newConn cfg).congr rfl rfl rfl rfl
  · next p hp =>
    split
    · exact hr
    · next existing hexisting =>
      split
      · have hset : Inv (r.setConn p fun mc =>
            { mc with cfg := cfg, client := none, healthy := false }) := by
          apply hr.setConn p
          · exact fun _ => rfl
          · exact fun mc _ _ => isHealthy_of_no_client rfl
        exact hset.congr rfl rfl rfl rfl
      · apply hr.setConn p
        · exact fun _ => rfl
        · exact fun mc hmc hmarked => hr.down mc (List.mem_of_getElem? hmc) hmarked

theorem Inv.reloadNode (hr : Inv r) : Inv r.reloadNode := by
  unfold Router.reloadNode
  split
  · exact hr
  · next id stale active _ => exact (hr.removeNode id).congr rfl rfl rfl rfl
  · next cfg active _ => exact (hr.addNode cfg).congr rfl rfl rfl rfl
  · exact hr.congr rfl rfl rfl rfl

theorem Inv.trip (hr : Inv r) (p : Nat) (todo : List Nat) : Inv (r.trip p todo) := by
  have hset : Inv (r.setConn p fun mc => { mc with healthy := false }) := by
    apply hr.setConn p
    · exact fun _ => rfl
    · exact fun mc _ _ => isHealthy_of_not_healthy rfl
  unfold Router.trip
  split
  · exact hr.congr rfl rfl rfl rfl
  · dsimp only
    split
    · exact hset.congr rfl rfl rfl rfl
    · exact hset.congr rfl rfl rfl rfl

theorem Inv.heartbeatDone (hr : Inv r) (p : Nat) {up : Bool} (todo : List Nat)
    (hup : up = true → ∀ mc ∈ r.heap[p]?, mc.nodeID ∉ r.marked) : Inv (r.heartbeatDone p up todo) := by
  unfold Router.heartbeatDone
  split
  · next h =>
    have hset : Inv (r.setConn p fun mc => { mc with failCount := 0, healthy := true }) := by
      apply hr.setConn p
      · exact fun _ => rfl
      · exact fun mc hmc hmarked => absurd hmarked (hup h mc hmc)
    exact hset.congr rfl rfl rfl rfl
  · have hset : Inv (r.setConn p fun mc => { mc with failCount := mc.failCount + 1 }) := by
      apply hr.setConn p
      · exact fun _ => rfl
      · exact fun mc hmc hmarked => hr.down mc (List.mem_of_getElem? hmc) hmarked
    exact hset.congr rfl rfl rfl rfl

theorem Inv.unmark (hr : Inv r) (q : Int → Bool) : Inv { r with marked := r.marked.filter q } where
  conns := hr.conns
  calls := hr.calls
  down := fun mc hmc hmarked => hr.down mc hmc (List.mem_of_mem_filter hmarked)
  checked := fun call hcall hchecked hmarked =>
    hr.checked call hcall hchecked (List.mem_of_mem_filter hmarked)

theorem Inv.mark (hr : Inv r) {id : Int} (hdown : ∀ mc ∈ r.heap, mc.nodeID = id → mc.isHealthy = false)
    (hcalls : ∀ call ∈ r.calls, call.nodeID = id → call.checked = false) :
    Inv { r with marked := id :: r.marked } where
  conns := hr.conns
  calls := hr.calls
  down := by
    intro mc hmc hmarked
    rcases List.mem_cons.1 hmarked with hid | hmarked
    · exact hdown mc hmc hid
    · exact hr.down mc hmc hmarked
  checked := by
    intro call hcall hchecked hmarked
    rcases List.mem_cons.1 hmarked with hid | hmarked
    · rw [hcalls call hcall hid] at hchecked
      cases hchecked
    · exact hr.checked call hcall hchecked hmarked

theorem Inv.connFor (hr : Inv r) {nodeID : Int} {p : Nat} (hp : r.conns nodeID = some p) :
    Inv { r with calls := r.calls ++ [⟨nodeID, p, false⟩] } := by
  refine ⟨hr.conns, ?_, hr.down, ?_⟩
  · intro call hcall
    rcases List.mem_append.1 hcall with hcall | hcall
    · exact hr.calls call hcall
    · obtain rfl := List.mem_singleton.1 hcall
      exact hr.conns nodeID p hp
  · intro call hcall hchecked
    rcases List.mem_append.1 hcall with hcall | hcall
    · exact hr.checked call hcall hchecked
    · obtain rfl := List.mem_singleton.1 hcall
      cases hchecked

theorem Inv.checkHealthy (hr : Inv r) {i : Nat} {call : Call} (hi : r.calls[i]? = some call)
    (hhealthy : r.heap[call.conn]?.any ManagedConn.isHealthy = true) :
    Inv { r with calls := r.calls.set i { call with checked := true } } := by
  have hcall := List.mem_of_getElem? hi
  obtain ⟨mc, hmc, hid⟩ := hr.calls call hcall
  refine ⟨hr.conns, ?_, hr.down, ?_⟩
  · intro other hother
    rcases List.mem_or_eq_of_mem_set hother with hother | rfl
    · exact hr.calls other hother
    · exact ⟨mc, hmc, hid⟩
  · intro other hother hchecked
    rcases List.mem_or_eq_of_mem_set hother with hother | rfl
    · exact hr.checked other hother hchecked
    · intro hmarked
      rw [hmc] at hhealthy
      have hdown := hr.down mc (List.mem_of_getElem? hmc) (hid ▸ hmarked)
      rw [Option.any_some, hdown] at hhealthy
      cases hhealthy

theorem Inv.reconnect (hr : Inv r) (p : Nat) {f : ManagedConn → ManagedConn}
    (hf : ∀ mc, (f mc).nodeID = mc.nodeID ∧
      ((f mc).healthy = false ∨ (f mc).isHealthy = mc.isHealthy))
    (reconnects : List (Nat × ReconnectStage)) :
    Inv { r.setConn p f with reconnects := reconnects } := by
  have hset : Inv (r.setConn p f) := by
    apply hr.setConn p
    · exact fun mc => (hf mc).1
    · intro mc hmc hmarked
      rcases (hf mc).2 with hdown | hsame
      · exact isHealthy_of_not_healthy hdown
      · rw [hsame]
        exact hr.down mc (List.mem_of_getElem? hmc) hmarked
  exact hset.congr rfl rfl rfl rfl

theorem Inv.dialNode (hr : Inv r) {i : Nat} {client : Option Nat}
    (ha : KeepsDown r (.dialNode i client)) : Inv (Affinity.step r (.dialNode i client)) := by
  unfold Affinity.step
  dsimp only
  split
  · exact hr
  · next p hp =>
    have herase : Inv { r with dialing := r.dialing.eraseIdx i } := hr.congr rfl rfl rfl rfl
    cases client with
    | none => exact herase
    | some c =>
      apply herase.setConn p
      · exact fun _ => rfl
      · exact fun mc hmc hmarked => absurd hmarked (ha p hp mc hmc)

theorem Inv.markNodeUnhealthy (hr : Inv r) {i : Nat} {updated : Bool}
    (ha : KeepsDown r (.markNodeUnhealthy i updated)) :
    Inv (Affinity.step r (.markNodeUnhealthy i updated)) := by
  unfold Affinity.step
  dsimp only
  split
  · exact hr
  · next id hid =>
    split
    · next hupdated =>
      subst hupdated
      obtain ⟨hdown, hcalls⟩ := ha id hid
      exact (hr.mark hdown hcalls).congr rfl rfl rfl rfl
    · exact hr.congr rfl rfl rfl rfl

/-- The calls that ask for a connection move on only past a healthy one. -/
theorem Inv.checkStep (hr : Inv r) (i : Nat) : Inv (Affinity.step r (.checkHealthy i)) := by
  unfold Affinity.step
  dsimp only
  split
  · exact hr
  · next call hcall =>
    split
    · exact hr
    · split
      · next hhealthy => exact hr.checkHealthy hcall hhealthy
      · exact hr.subsetCalls fun other hother => List.mem_of_mem_eraseIdx hother

theorem Inv.step (hr : Inv r) {a : Action} (ha : KeepsDown r a) : Inv (step r a) := by
  cases a with
  | setNode row => exact hr.congr rfl rfl rfl rfl
  | deleteNode nodeID => exact hr.congr rfl rfl rfl rfl
  | loadNodes => exact (hr.unmark _).congr rfl rfl rfl rfl
  | reload i =>
    simp only [Affinity.step]
    split
    · exact hr.congr rfl rfl rfl rfl
    · exact hr
  | reloadNode => exact hr.reloadNode
  | dialNode i client => exact hr.dialNode ha
  | tick order =>
    simp only [Affinity.step]
    split
    · exact hr.congr rfl rfl rfl rfl
    · exact hr
  | heartbeat =>
    simp only [Affinity.step]
    split
    · exact hr.congr rfl rfl rfl rfl
    · exact hr
  | heartbeatDone up =>
    simp only [Affinity.step]
    split
    · next p connected todo hhealth =>
      apply hr.heartbeatDone p todo
      intro hup
      simp only [KeepsDown, hhealth] at ha
      obtain ⟨hconnected, hup⟩ := Bool.and_eq_true_iff.1 hup
      exact ha hconnected hup
    · exact hr
  | trip =>
    simp only [Affinity.step]
    split
    · exact hr.trip _ _
    · exact hr
  | markNodeUnhealthy i updated => exact hr.markNodeUnhealthy ha
  | reconnectStart i =>
    simp only [Affinity.step]
    split
    · split
      · exact hr.congr rfl rfl rfl rfl
      · apply hr.reconnect
        exact fun mc => ⟨rfl, Or.inr rfl⟩
    · exact hr
  | reconnectAttempt i client =>
    simp only [Affinity.step]
    split
    · apply hr.reconnect
      exact fun mc => ⟨rfl, Or.inl rfl⟩
    · exact hr
  | reconnectDone i =>
    simp only [Affinity.step]
    split
    · apply hr.reconnect
      exact fun mc => ⟨rfl, Or.inr rfl⟩
    · exact hr
  | connFor cached row =>
    simp only [Affinity.step]
    split
    · exact hr
    · next nodeID _ =>
      split
      · next p _ hp _ => exact hr.connFor hp
      · exact hr
  | checkHealthy i => exact hr.checkStep i
  | takeClient i =>
    simp only [Affinity.step]
    split
    · split
      · exact hr.subsetCalls fun other hother => List.mem_of_mem_eraseIdx hother
      · exact hr
    · exact hr

theorem Inv.avoidsMarked (hr : Inv r) (a : Action) : AvoidsMarked r a := by
  intro id hid
  unfold returned at hid
  split at hid
  · split at hid
    · next call hcall =>
      split at hid
      · next hchecked =>
        obtain rfl := Option.some.inj hid
        exact hr.checked call (List.mem_of_getElem? hcall) hchecked.1
      · cases hid
    · cases hid
  · cases hid

end Steps

theorem inv_start (db : List NodeConfig) : Inv (Router.start db) :=
  ⟨fun _ _ h => (by cases h), fun _ h => (by cases h), fun _ h => (by cases h), fun _ h => (by cases h)⟩

theorem marked_node_never_returned (db : List NodeConfig) (l : List Action)
    (hl : EachStep step KeepsDown (Router.start db) l) :
    EachStep step AvoidsMarked (Router.start db) l :=
  eachStep_of_invariant (fun _ _ hr ha => hr.step ha) (fun _ a hr _ => hr.avoidsMarked a)
    (inv_start db) hl

def nodeOne : NodeConfig := ⟨1, "fs1", 8021, "secret", 100, .active⟩

def reloadOnce : List Action := [.loadNodes, .reload 0, .reloadNode, .reloadNode]

def beat (up : Bool) : List Action := [.tick [1], .heartbeat, .heartbeatDone up]

/-- The only node is dialled, misses three heartbeats and is marked. -/
def markedNode : List Action :=
  reloadOnce ++ [.dialNode 0 (some 1)] ++ beat false ++ beat false ++ beat false ++
    [.trip, .markNodeUnhealthy 0 true]

def connForOne : List Action := [.connFor (some "1") (.ok none), .checkHealthy 0, .takeClient 0]

/-- The node is reconnected, an administrator makes it active again, and it answers. -/
def activeAgain : List Action :=
  markedNode ++ [.reconnectStart 0, .reconnectAttempt 0 (some 2), .reconnectDone 0] ++ connForOne ++
    [.setNode nodeOne] ++ reloadOnce ++ beat true ++ connForOne

theorem node_returned_after_active_reload :
    EachStep step KeepsDown (Router.start [nodeOne]) activeAgain ∧
      EachStep step AvoidsMarked (Router.start [nodeOne]) activeAgain := by
  have hdown : EachStep step KeepsDown (Router.start [nodeOne]) activeAgain := by decide
  exact ⟨hdown, marked_node_never_returned [nodeOne] activeAgain hdown⟩

/-- The marked node answers the next heartbeat. -/
theorem heartbeat_returns_marked_node :
    ¬ ∀ db l, EachStep step AvoidsMarked (Router.start db) l := by
  intro h
  exact absurd (h [nodeOne] (markedNode ++ beat true ++ connForOne)) (by decide)

end Affinity

end Vici2
