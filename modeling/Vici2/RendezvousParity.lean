import Vici2.FirstMax
import Vici2.Rebalancer

/-! The assignment of campaigns to nodes as the API computes it, against the dialer's. -/

namespace Vici2.Affinity

namespace Ts

def asUintN64 (n : Nat) : Nat := n % 2 ^ 64

/-- The bytes that `writeBigUInt64LE` writes; it throws where the value does not fit. -/
def writeBigUInt64LE (value : Int) : Except String (List Nat) :=
  if 0 ≤ value ∧ value < 2 ^ 64 then
    .ok ((List.range 8).map fun i => value.toNat / 256 ^ i % 256)
  else .error ("The value of \"value\" is out of range. It must be >= 0n and < 2n ** 64n. " ++
    "Received " ++ toString value ++ "n")

def fnv1a64 (campaignId nodeId : Int) : Except String Nat := do
  let campaign ← writeBigUInt64LE campaignId
  let node ← writeBigUInt64LE nodeId
  return (campaign ++ node).foldl (fun h byte => asUintN64 ((h ^^^ byte) * 1099511628211))
    14695981039346656037

def rendezVousScore (campaignId nodeId weight : Int) : Except String Nat := do
  let base ← fnv1a64 campaignId nodeId
  return asUintN64 (base * (max 1 weight).toNat)

structure NodeRow where
  id : Int
  weight : Int
  deriving DecidableEq, Repr

/-- One round of the loop over the nodes after the first. -/
def keepBest (campaignId : Int) (best : NodeRow × Nat) (node : NodeRow) :
    Except String (NodeRow × Nat) := do
  let score ← rendezVousScore campaignId node.id node.weight
  return if score > best.2 then (node, score) else best

def noActiveNodes : String := "No ACTIVE FS nodes available for auto-assignment"

/-- `nodes` are the rows that the query for ACTIVE nodes returns. -/
def computeAutoAssignment (campaignId : Int) (nodes : List NodeRow) : Except String Int :=
  match nodes with
  | [] => .error noActiveNodes
  | first :: rest => do
    let bestScore ← rendezVousScore campaignId first.id first.weight
    let best ← rest.foldlM (keepBest campaignId) (first, bestScore)
    return best.1.id

end Ts

def NodeConfig.row (n : NodeConfig) : Ts.NodeRow := ⟨n.nodeID, n.weight⟩

/-- ACTIVE nodes with distinct positive ids and weights that fit their columns. -/
structure ActiveNodes where
  nodes : List NodeConfig
  active : ∀ n ∈ nodes, n.status = .active
  distinct : (nodes.map NodeConfig.nodeID).Nodup
  ids : ∀ n ∈ nodes, 0 < n.nodeID ∧ n.nodeID < 2 ^ 32
  weights : ∀ n ∈ nodes, 0 ≤ n.weight ∧ n.weight < 2 ^ 32

def assigned : Option NodeConfig → Except String Int
  | some n => .ok n.nodeID
  | none => .error Ts.noActiveNodes

theorem uint64_of_fits {n : Int} (hlow : 0 ≤ n) (hhigh : n < 2 ^ 64) : uint64 n = n.toNat := by
  have hmod : n % wordSize = n := Int.emod_eq_of_lt hlow (by simpa [wordSize] using hhigh)
  rw [uint64, hmod]

theorem writeBigUInt64LE_eq {n : Int} (hlow : 0 ≤ n) (hhigh : n < 2 ^ 64) :
    Ts.writeBigUInt64LE n = .ok (littleEndian64 n) := by
  have hbytes : ∀ i, n.toNat / 256 ^ i % 256 = uint64 n >>> (8 * i) % 256 := by
    intro i
    have hpow : 256 ^ i = 2 ^ (8 * i) := by rw [Nat.pow_mul]
    rw [uint64_of_fits hlow hhigh, Nat.shiftRight_eq_div_pow, hpow]
  simp only [Ts.writeBigUInt64LE, hlow, hhigh, and_self, if_true, hbytes, littleEndian64]

theorem fnv1a64_eq {c n : Int} (hc : 0 ≤ c ∧ c < 2 ^ 64) (hn : 0 ≤ n ∧ n < 2 ^ 64) :
    Ts.fnv1a64 c n = .ok (rendezVousScore c n) := by
  simp only [Ts.fnv1a64, writeBigUInt64LE_eq hc.1 hc.2, writeBigUInt64LE_eq hn.1 hn.2]
  rfl

theorem rendezVousScore_eq {c : Int} {n : NodeConfig} (hc : 0 ≤ c ∧ c < 2 ^ 64)
    (hid : 0 ≤ n.nodeID ∧ n.nodeID < 2 ^ 64) (hw : 0 ≤ n.weight ∧ n.weight < 2 ^ 64) :
    Ts.rendezVousScore c n.nodeID n.weight = .ok (weightedScore c n) := by
  have hweight : uint64 (if n.weight ≤ 0 then 1 else n.weight) = (max 1 n.weight).toNat := by
    by_cases hzero : n.weight ≤ 0
    · rw [if_pos hzero, max_eq_left (hzero.trans (by decide))]
      rfl
    · rw [if_neg hzero, max_eq_right (by omega)]
      exact uint64_of_fits hw.1 hw.2
  simp only [Ts.rendezVousScore, fnv1a64_eq hc hid, weightedScore, hweight]
  rfl

/-- The dialer's loop over nodes that are all in the running. -/
theorem foldl_keepBest_eq {c exclude : Int} {nodes : List NodeConfig}
    (h : ∀ n ∈ nodes, n.status = .active ∧ n.nodeID ≠ exclude) :
    nodes.foldl (keepBest c exclude) none =
      (nodes.argmax (weightedScore c)).map fun n => (n, weightedScore c n) := by
  rw [← foldl_keepMax]
  have hfold : ∀ best : Option NodeConfig,
      nodes.foldl (keepBest c exclude) (best.map fun n => (n, weightedScore c n)) =
        (nodes.foldl (keepMax (weightedScore c)) best).map fun n => (n, weightedScore c n) := by
    induction nodes with
    | nil => exact fun _ => rfl
    | cons n nodes ih =>
      intro best
      obtain ⟨hactive, hother⟩ := h n List.mem_cons_self
      have hround : keepBest c exclude (best.map fun n => (n, weightedScore c n)) n =
          (keepMax (weightedScore c) best n).map fun n => (n, weightedScore c n) := by
        rw [keepBest, if_neg hother, if_neg (not_not.2 hactive)]
        cases best with
        | none => rfl
        | some b =>
          by_cases hlt : weightedScore c b < weightedScore c n
          · simp [keepMax, hlt]
          · simp [keepMax, hlt]
      rw [List.foldl_cons, List.foldl_cons, hround]
      exact ih (fun m hm => h m (List.mem_cons_of_mem _ hm)) _
  exact hfold none

theorem nextHealthyNode_eq {c exclude : Int} {nodes : List NodeConfig}
    (h : ∀ n ∈ nodes, n.status = .active ∧ n.nodeID ≠ exclude) :
    nextHealthyNode c exclude nodes = nodes.argmax (weightedScore c) := by
  rw [nextHealthyNode, foldl_keepBest_eq h, Option.map_map]
  exact Option.map_id'

/-- The API's loop over nodes whose scores are all defined. -/
theorem computeAutoAssignment_eq {c : Int} {nodes : List NodeConfig}
    (h : ∀ n ∈ nodes, Ts.rendezVousScore c n.nodeID n.weight = .ok (weightedScore c n)) :
    Ts.computeAutoAssignment c (nodes.map NodeConfig.row) =
      assigned (nodes.argmax (weightedScore c)) := by
  have hfold : ∀ (rest : List NodeConfig) (best : NodeConfig), (∀ n ∈ rest, n ∈ nodes) →
      ∃ m, rest.foldl (keepMax (weightedScore c)) (some best) = some m ∧
        (rest.map NodeConfig.row).foldlM (Ts.keepBest c) (best.row, weightedScore c best) =
          .ok (m.row, weightedScore c m) := by
    intro rest
    induction rest with
    | nil => exact fun best _ => ⟨best, rfl, rfl⟩
    | cons n rest ih =>
      intro best hrest
      have hscore := h n (hrest n List.mem_cons_self)
      have hround : Ts.keepBest c (best.row, weightedScore c best) n.row =
          .ok (if weightedScore c best < weightedScore c n then (n.row, weightedScore c n)
            else (best.row, weightedScore c best)) := by
        simp only [Ts.keepBest, NodeConfig.row, hscore]
        rfl
      have htail : ∀ m ∈ rest, m ∈ nodes := fun m hm => hrest m (List.mem_cons_of_mem _ hm)
      rw [List.map_cons, List.foldlM_cons, hround, List.foldl_cons]
      by_cases hlt : weightedScore c best < weightedScore c n
      · rw [if_pos hlt, show keepMax (weightedScore c) (some best) n = some n from if_pos hlt]
        exact ih n htail
      · rw [if_neg hlt, show keepMax (weightedScore c) (some best) n = some best from if_neg hlt]
        exact ih best htail
  cases nodes with
  | nil => rfl
  | cons first rest =>
    have hscore := h first List.mem_cons_self
    obtain ⟨m, hmax, hm⟩ := hfold rest first fun n hn => List.mem_cons_of_mem _ hn
    have hargmax : (first :: rest).argmax (weightedScore c) = some m := by
      rw [← foldl_keepMax]
      exact hmax
    rw [hargmax]
    calc Ts.computeAutoAssignment c ((first :: rest).map NodeConfig.row)
        = (do
            let bestScore ← Ts.rendezVousScore c first.nodeID first.weight
            let best ← (rest.map NodeConfig.row).foldlM (Ts.keepBest c) (first.row, bestScore)
            return best.1.id) := rfl
      _ = (do
            let best ← (rest.map NodeConfig.row).foldlM (Ts.keepBest c)
              (first.row, weightedScore c first)
            return best.1.id) := by rw [hscore]; rfl
      _ = assigned (some m) := by rw [hm]; rfl

variable {c exclude : Int}

theorem ActiveNodes.scores (l : ActiveNodes) (hc : 0 ≤ c ∧ c < 2 ^ 53) :
    ∀ n ∈ l.nodes, Ts.rendezVousScore c n.nodeID n.weight = .ok (weightedScore c n) := by
  intro n hn
  obtain ⟨hpos, hid⟩ := l.ids n hn
  obtain ⟨hzero, hweight⟩ := l.weights n hn
  exact rendezVousScore_eq ⟨hc.1, by omega⟩ ⟨hpos.le, by omega⟩ ⟨hzero, by omega⟩

def ActiveNodes.without (l : ActiveNodes) (n : NodeConfig) : ActiveNodes where
  nodes := l.nodes.erase n
  active m hm := l.active m (List.mem_of_mem_erase hm)
  distinct := l.distinct.sublist (List.erase_sublist.map _)
  ids m hm := l.ids m (List.mem_of_mem_erase hm)
  weights m hm := l.weights m (List.mem_of_mem_erase hm)

/-- The dialer and the API choose one node, and a node that leaves the list takes only its own
campaigns with it. -/
theorem rendezvous_assignment (l : ActiveNodes) (campaignId : Int) (hlow : 0 ≤ campaignId)
    (hhigh : campaignId < 2 ^ 53) (exclude : Int) (hexclude : ∀ n ∈ l.nodes, n.nodeID ≠ exclude) :
    Ts.computeAutoAssignment campaignId (l.nodes.map NodeConfig.row) =
        assigned (nextHealthyNode campaignId exclude l.nodes) ∧
      ∀ n ∈ l.nodes,
        (nextHealthyNode campaignId exclude l.nodes ≠ some n →
          nextHealthyNode campaignId exclude (l.without n).nodes =
            nextHealthyNode campaignId exclude l.nodes) ∧
        (Ts.computeAutoAssignment campaignId (l.nodes.map NodeConfig.row) ≠ .ok n.nodeID →
          Ts.computeAutoAssignment campaignId ((l.without n).nodes.map NodeConfig.row) =
            Ts.computeAutoAssignment campaignId (l.nodes.map NodeConfig.row)) := by
  have hgo : ∀ l' : ActiveNodes, (∀ n ∈ l'.nodes, n.nodeID ≠ exclude) →
      nextHealthyNode campaignId exclude l'.nodes = l'.nodes.argmax (weightedScore campaignId) :=
    fun l' hl' => nextHealthyNode_eq fun n hn => ⟨l'.active n hn, hl' n hn⟩
  have hts : ∀ l' : ActiveNodes,
      Ts.computeAutoAssignment campaignId (l'.nodes.map NodeConfig.row) =
        assigned (l'.nodes.argmax (weightedScore campaignId)) :=
    fun l' => computeAutoAssignment_eq (l'.scores ⟨hlow, hhigh⟩)
  have hnodup : l.nodes.Nodup := List.Nodup.of_map _ l.distinct
  rw [hts l, hgo l hexclude]
  refine ⟨rfl, fun n hn => ?_⟩
  have hrest : ∀ m ∈ (l.without n).nodes, m.nodeID ≠ exclude :=
    fun m hm => hexclude m (List.mem_of_mem_erase hm)
  rw [hts (l.without n), hgo (l.without n) hrest]
  refine ⟨fun hother => argmax_erase hnodup hother, fun hother => ?_⟩
  have hne : l.nodes.argmax (weightedScore campaignId) ≠ some n := by
    intro hchosen
    rw [hchosen] at hother
    exact hother rfl
  exact congrArg assigned (argmax_erase hnodup hne)

def weightedNodes : ActiveNodes where
  nodes :=
    [⟨1, "fs-1", 8021, "", 100, .active⟩, ⟨2, "fs-2", 8021, "", 100, .active⟩,
      ⟨3, "fs-3", 8021, "", 0, .active⟩]
  active := by decide
  distinct := by decide
  ids := by decide
  weights := by decide

def thirdNode : NodeConfig := ⟨3, "fs-3", 8021, "", 0, .active⟩

theorem rendezvous_assignment_of_campaign_seven :
    Ts.computeAutoAssignment 7 (weightedNodes.nodes.map NodeConfig.row) =
        assigned (nextHealthyNode 7 0 weightedNodes.nodes) ∧
      nextHealthyNode 7 0 (weightedNodes.without thirdNode).nodes =
        nextHealthyNode 7 0 weightedNodes.nodes ∧
      Ts.computeAutoAssignment 7 ((weightedNodes.without thirdNode).nodes.map NodeConfig.row) =
        Ts.computeAutoAssignment 7 (weightedNodes.nodes.map NodeConfig.row) := by
  obtain ⟨hsame, hstays⟩ :=
    rendezvous_assignment weightedNodes 7 (by decide) (by decide) 0 (by decide)
  obtain ⟨hdialer, hapi⟩ := hstays thirdNode (by decide)
  exact ⟨hsame, hdialer (by decide +kernel), hapi (by decide +kernel)⟩

end Vici2.Affinity
