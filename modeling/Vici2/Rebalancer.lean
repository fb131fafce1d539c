import Mathlib.Data.List.Forall2
import Mathlib.Data.List.Induction
import Vici2.EslRouter

/-! Campaigns that were pinned to a node that failed move to the node with the
highest rendezvous score. Two campaigns of different tenants may have one id, and ids
are compared by the collation of the database. -/

namespace Vici2

namespace Affinity

def fnvOffset : Nat := 14695981039346656037

def fnvPrime : Nat := 1099511628211

/-- A machine word has 64 bits. -/
def wordSize : Nat := 18446744073709551616

def uint64 (n : Int) : Nat := (n % wordSize).toNat

/-- FNV-1a of 64 bits. -/
def fnv64a (bytes : List Nat) : Nat :=
  bytes.foldl (fun h b => (h ^^^ b) * fnvPrime % wordSize) fnvOffset

def littleEndian64 (n : Int) : List Nat := (List.range 8).map fun i => uint64 n >>> (8 * i) % 256

def rendezVousScore (campaignID nodeID : Int) : Nat :=
  fnv64a (littleEndian64 campaignID ++ littleEndian64 nodeID)

def weightedScore (campaignID : Int) (n : NodeConfig) : Nat :=
  let w := if n.weight ≤ 0 then 1 else n.weight
  rendezVousScore campaignID n.nodeID * uint64 w % wordSize

/-- One round of the loop over the nodes. -/
def keepBest (campaignID excludeNodeID : Int) (best : Option (NodeConfig × Nat)) (n : NodeConfig) :
    Option (NodeConfig × Nat) :=
  if n.nodeID = excludeNodeID then best
  else if n.status ≠ .active then best
  else
    let score := weightedScore campaignID n
    match best with
    | none => some (n, score)
    | some (b, bestScore) => if score > bestScore then some (n, score) else some (b, bestScore)

def nextHealthyNode (campaignID excludeNodeID : Int) (nodes : List NodeConfig) : Option NodeConfig :=
  (nodes.foldl (keepBest campaignID excludeNodeID) none).map Prod.fst

structure Campaign where
  tenantId : Int
  id : String
  fsNodeId : Option Int
  deriving DecidableEq, Repr

inductive RedisValue
  | string (text : String)
  | set (members : List String)
  deriving DecidableEq, Repr

abbrev Keyspace := String → Option RedisValue

/-- `GET`, which fails on a missing key and on a key of another type. -/
def redisGet (redis : Keyspace) (key : String) : Option String :=
  match redis key with
  | some (.string text) => some text
  | _ => none

def activeKey (tenantId : Int) (id : String) : String :=
  "t:" ++ toString tenantId ++ ":campaign:\x7b" ++ id ++ "\x7d:active_calls"

def skipsCampaign (redis : Keyspace) (c : Campaign) : Bool :=
  match redisGet redis (activeKey c.tenantId c.id) with
  | none => false
  | some activeStr => activeStr ≠ "" ∧ (atoi activeStr).1 > 0

def loadActiveNodes (fsNodes : List NodeConfig) : List NodeConfig :=
  fsNodes.filter fun n => n.status = .active

structure Repin where
  campaigns : List Campaign
  cache : List (String × Int)
  events : List (String × Int × Int)
  repinned : Nat
  skipped : Nat
  deriving DecidableEq, Repr

section

variable (collate : String → String)

/-- `UPDATE campaigns SET fs_node_id = ? WHERE id = ?` -/
def updatePin (id : String) (nodeID : Int) (c : Campaign) : Campaign :=
  if collate c.id = collate id then { c with fsNodeId := some nodeID } else c

def repinCampaign (redis : Keyspace) (nodes : List NodeConfig) (nodeID : Int) (acc : Repin)
    (c : Campaign) : Repin :=
  if skipsCampaign redis c then { acc with skipped := acc.skipped + 1 }
  else
    match nextHealthyNode (atoi c.id).1 nodeID nodes with
    | none => acc
    | some target =>
      { acc with
        campaigns := acc.campaigns.map (updatePin collate c.id target.nodeID)
        cache := acc.cache ++ [("affinity:campaign:" ++ c.id, target.nodeID)]
        events := acc.events ++ [(c.id, nodeID, target.nodeID)]
        repinned := acc.repinned + 1 }

def repinCampaigns (redis : Keyspace) (fsNodes : List NodeConfig) (campaigns : List Campaign)
    (nodeID : Int) : Repin :=
  let nodes := loadActiveNodes fsNodes
  let pinned := campaigns.filter fun c => c.fsNodeId = some nodeID
  pinned.foldl (repinCampaign collate redis nodes nodeID) ⟨campaigns, [], [], 0, 0⟩

end

/-- The calls of a campaign are the members of its set; a counter in its place counts
them. -/
def HasActiveCalls (redis : Keyspace) (c : Campaign) : Prop :=
  match redis (activeKey c.tenantId c.id) with
  | none => False
  | some (.string text) => (atoi text).1 > 0
  | some (.set members) => members ≠ []

/-- An ACTIVE node other than the failed one. -/
def Available (fsNodes : List NodeConfig) (nodeID : Int) (n : NodeConfig) : Prop :=
  n ∈ fsNodes ∧ n.status = .active ∧ n.nodeID ≠ nodeID

/-- A campaign of the failed node without active calls goes to an available node if there
is one; every other campaign keeps its pin. -/
structure RowConfined (redis : Keyspace) (fsNodes : List NodeConfig) (nodeID : Int)
    (c c' : Campaign) : Prop where
  same : c'.tenantId = c.tenantId ∧ c'.id = c.id
  moved : c.fsNodeId = some nodeID → ¬ HasActiveCalls redis c → (∃ n, Available fsNodes nodeID n) →
    ∃ n, Available fsNodes nodeID n ∧ c'.fsNodeId = some n.nodeID
  kept : c.fsNodeId ≠ some nodeID ∨ HasActiveCalls redis c → c'.fsNodeId = c.fsNodeId

/-- The campaigns that are moved, in the order in which they are. -/
def repinnedCampaigns (redis : Keyspace) (campaigns : List Campaign) (nodeID : Int) : List Campaign :=
  campaigns.filter fun c => c.fsNodeId = some nodeID ∧ ¬ skipsCampaign redis c

def sharing (collate : String → String) (c : Campaign) (l : List Campaign) : List Campaign :=
  l.filter fun d => collate c.id = collate d.id

/-- When there is an available node: a campaign of the failed node with active calls shares
its id with no campaign that is moved, itself included; a campaign that is not of the
failed node and shares its id with campaigns that are moved is already pinned to the
node that the last of them moves to. -/
def ConfinedWhen (collate : String → String) (redis : Keyspace) (fsNodes : List NodeConfig)
    (campaigns : List Campaign) (nodeID : Int) : Prop :=
  (∃ n, Available fsNodes nodeID n) → ∀ c ∈ campaigns,
    (c.fsNodeId = some nodeID → HasActiveCalls redis c →
      sharing collate c (repinnedCampaigns redis campaigns nodeID) = []) ∧
    (c.fsNodeId ≠ some nodeID →
      ∀ d, (sharing collate c (repinnedCampaigns redis campaigns nodeID)).getLast? = some d →
        ∀ n, nextHealthyNode (atoi d.id).1 nodeID (loadActiveNodes fsNodes) = some n →
          c.fsNodeId = some n.nodeID)

section Rendezvous

variable {campaignID nodeID : Int}

theorem keepBest_skip {n : NodeConfig} (hn : ¬ (n.status = .active ∧ n.nodeID ≠ nodeID))
    (best : Option (NodeConfig × Nat)) : keepBest campaignID nodeID best n = best := by
  unfold keepBest
  split
  · rfl
  · next hid =>
    split
    · rfl
    · next hactive => exact absurd ⟨not_not.1 hactive, hid⟩ hn

theorem keepBest_take (campaignID : Int) {n : NodeConfig} (hn : n.status = .active ∧ n.nodeID ≠ nodeID)
    (best : Option (NodeConfig × Nat)) : ∃ m s, keepBest campaignID nodeID best n = some (m, s) ∧
      (m = n ∨ ∃ t, best = some (m, t)) := by
  unfold keepBest
  rw [if_neg hn.2, if_neg (not_not.2 hn.1)]
  cases best with
  | none => exact ⟨n, _, rfl, Or.inl rfl⟩
  | some found =>
    dsimp only
    split
    · exact ⟨n, _, rfl, Or.inl rfl⟩
    · exact ⟨found.1, _, rfl, Or.inr ⟨_, rfl⟩⟩

theorem foldl_keepBest_none {nodes : List NodeConfig} {best : Option (NodeConfig × Nat)}
    (h : nodes.foldl (keepBest campaignID nodeID) best = none) :
    best = none ∧ ∀ n ∈ nodes, ¬ (n.status = .active ∧ n.nodeID ≠ nodeID) := by
  induction nodes generalizing best with
  | nil => exact ⟨h, fun n hn => by cases hn⟩
  | cons n nodes ih =>
    obtain ⟨hround, hrest⟩ := ih h
    have hn : ¬ (n.status = .active ∧ n.nodeID ≠ nodeID) := by
      intro hn
      obtain ⟨m, s, htake, -⟩ := keepBest_take campaignID hn best
      rw [hround] at htake
      cases htake
    rw [keepBest_skip hn] at hround
    refine ⟨hround, ?_⟩
    intro n' hn'
    rcases List.mem_cons.1 hn' with rfl | hn'
    · exact hn
    · exact hrest n' hn'

theorem foldl_keepBest_some {nodes : List NodeConfig} {best : Option (NodeConfig × Nat)}
    {m : NodeConfig} {s : Nat} (h : nodes.foldl (keepBest campaignID nodeID) best = some (m, s)) :
    (m ∈ nodes ∧ m.status = .active ∧ m.nodeID ≠ nodeID) ∨ ∃ t, best = some (m, t) := by
  induction nodes generalizing best with
  | nil => exact Or.inr ⟨s, h⟩
  | cons n nodes ih =>
    rcases ih h with ⟨hm, htake⟩ | ⟨t, hround⟩
    · exact Or.inl ⟨List.mem_cons_of_mem _ hm, htake⟩
    · by_cases hn : n.status = .active ∧ n.nodeID ≠ nodeID
      · obtain ⟨m', s', htake, hfrom⟩ := keepBest_take campaignID hn best
        rw [htake] at hround
        obtain ⟨rfl, -⟩ := Prod.mk.inj (Option.some.inj hround)
        rcases hfrom with rfl | hfrom
        · exact Or.inl ⟨List.mem_cons_self, hn⟩
        · exact Or.inr hfrom
      · rw [keepBest_skip hn] at hround
        exact Or.inr ⟨t, hround⟩

variable {fsNodes : List NodeConfig}

theorem nextHealthyNode_available {n : NodeConfig}
    (h : nextHealthyNode campaignID nodeID (loadActiveNodes fsNodes) = some n) :
    Available fsNodes nodeID n := by
  unfold nextHealthyNode at h
  obtain ⟨⟨m, s⟩, hfold, rfl⟩ := Option.map_eq_some_iff.1 h
  rcases foldl_keepBest_some hfold with ⟨hm, hactive, hother⟩ | ⟨t, ht⟩
  · exact ⟨List.mem_of_mem_filter hm, hactive, hother⟩
  · cases ht

theorem exists_nextHealthyNode (campaignID : Int) (h : ∃ n, Available fsNodes nodeID n) :
    ∃ n, nextHealthyNode campaignID nodeID (loadActiveNodes fsNodes) = some n := by
  obtain ⟨n, hn, hactive, hother⟩ := h
  rw [← Option.ne_none_iff_exists']
  intro hnone
  unfold nextHealthyNode at hnone
  obtain ⟨-, hall⟩ := foldl_keepBest_none (Option.map_eq_none_iff.1 hnone)
  exact hall n (List.mem_filter.2 ⟨hn, decide_eq_true hactive⟩) ⟨hactive, hother⟩

end Rendezvous

section Rows

variable {collate : String → String} {redis : Keyspace} {fsNodes nodes : List NodeConfig}
  {campaigns : List Campaign} {nodeID : Int}

/-- The moves that reach a row, one after the other. -/
def movedRow (collate : String → String) (nodes : List NodeConfig) (nodeID : Int) (l : List Campaign)
    (c : Campaign) : Campaign :=
  l.foldl (fun c d => match nextHealthyNode (atoi d.id).1 nodeID nodes with
    | none => c
    | some target => updatePin collate d.id target.nodeID c) c

theorem foldl_repinCampaign (l : List Campaign) (acc : Repin) :
    (l.foldl (repinCampaign collate redis nodes nodeID) acc).campaigns =
      acc.campaigns.map (movedRow collate nodes nodeID (l.filter fun d => ¬ skipsCampaign redis d)) := by
  induction l generalizing acc with
  | nil => exact (List.map_id _).symm
  | cons d l ih =>
    rw [List.foldl_cons, ih]
    unfold repinCampaign
    split
    · next hskip => simp [hskip]
    · next hskip =>
      rw [List.filter_cons_of_pos (by simpa using hskip)]
      split
      · next hnone =>
        apply List.map_congr_left
        intro c _
        simp only [movedRow, List.foldl_cons, hnone]
      · next target htarget =>
        dsimp only
        rw [List.map_map]
        apply List.map_congr_left
        intro c _
        simp only [movedRow, List.foldl_cons, htarget, Function.comp]

theorem repinCampaigns_campaigns :
    (repinCampaigns collate redis fsNodes campaigns nodeID).campaigns =
      campaigns.map (movedRow collate (loadActiveNodes fsNodes) nodeID
        (repinnedCampaigns redis campaigns nodeID)) := by
  unfold repinCampaigns repinnedCampaigns
  dsimp only
  rw [foldl_repinCampaign, List.filter_filter]
  congr 2
  apply List.filter_congr
  intro c _
  simp [Bool.and_comm]

theorem movedRow_same (l : List Campaign) (c : Campaign) :
    (movedRow collate nodes nodeID l c).tenantId = c.tenantId ∧
      (movedRow collate nodes nodeID l c).id = c.id := by
  induction l generalizing c with
  | nil => exact ⟨rfl, rfl⟩
  | cons d l ih =>
    unfold movedRow at ih ⊢
    rw [List.foldl_cons]
    split
    · exact ih c
    · next target htarget =>
      have hupdate : (updatePin collate d.id target.nodeID c).tenantId = c.tenantId ∧
          (updatePin collate d.id target.nodeID c).id = c.id := by
        unfold updatePin
        split
        · exact ⟨rfl, rfl⟩
        · exact ⟨rfl, rfl⟩
      obtain ⟨htenant, hid⟩ := ih (updatePin collate d.id target.nodeID c)
      exact ⟨htenant.trans hupdate.1, hid.trans hupdate.2⟩

theorem movedRow_concat (l : List Campaign) (d c : Campaign) :
    movedRow collate nodes nodeID (l ++ [d]) c =
      match nextHealthyNode (atoi d.id).1 nodeID nodes with
      | none => movedRow collate nodes nodeID l c
      | some target => updatePin collate d.id target.nodeID (movedRow collate nodes nodeID l c) := by
  unfold movedRow
  rw [List.foldl_append]
  rfl

theorem movedRow_of_unavailable (h : ∀ campaignID, nextHealthyNode campaignID nodeID nodes = none)
    (l : List Campaign) (c : Campaign) : movedRow collate nodes nodeID l c = c := by
  induction l using List.reverseRecOn with
  | nil => rfl
  | append_singleton l d ih =>
    rw [movedRow_concat, h]
    exact ih

theorem sharing_concat (l : List Campaign) (d c : Campaign) :
    sharing collate c (l ++ [d]) =
      if collate c.id = collate d.id then sharing collate c l ++ [d] else sharing collate c l := by
  unfold sharing
  rw [List.filter_append]
  split
  · next h => simp [h]
  · next h => simp [h]

theorem pin_of_unshared {l : List Campaign} {c : Campaign} (h : sharing collate c l = []) :
    (movedRow collate nodes nodeID l c).fsNodeId = c.fsNodeId := by
  induction l using List.reverseRecOn with
  | nil => rfl
  | append_singleton l d ih =>
    rw [sharing_concat] at h
    split at h
    · exact absurd h (List.append_ne_nil_of_right_ne_nil _ (List.cons_ne_nil d []))
    · next hid =>
      rw [movedRow_concat]
      split
      · exact ih h
      · unfold updatePin
        rw [(movedRow_same l c).2, if_neg hid]
        exact ih h

/-- The last move that reaches a row decides. -/
theorem pin_of_shared {l : List Campaign} {c d : Campaign} {n : NodeConfig}
    (h : (sharing collate c l).getLast? = some d)
    (htarget : ∀ campaignID, nextHealthyNode campaignID nodeID nodes ≠ none)
    (hn : nextHealthyNode (atoi d.id).1 nodeID nodes = some n) :
    (movedRow collate nodes nodeID l c).fsNodeId = some n.nodeID := by
  induction l using List.reverseRecOn with
  | nil => cases h
  | append_singleton l e ih =>
    rw [sharing_concat] at h
    rw [movedRow_concat]
    split
    · next hnone => exact absurd hnone (htarget _)
    · next target hsome =>
      unfold updatePin
      rw [(movedRow_same l c).2]
      split at h
      · next hid =>
        rw [List.getLast?_concat] at h
        obtain rfl := Option.some.inj h
        rw [hsome] at hn
        obtain rfl := Option.some.inj hn
        rw [if_pos hid]
      · next hid =>
        rw [if_neg hid]
        exact ih h

theorem hasActiveCalls_of_skips {c : Campaign} (h : skipsCampaign redis c = true) :
    HasActiveCalls redis c := by
  unfold skipsCampaign redisGet at h
  unfold HasActiveCalls
  cases hkey : redis (activeKey c.tenantId c.id) with
  | none =>
    rw [hkey] at h
    cases h
  | some v =>
    cases v with
    | string text =>
      rw [hkey] at h
      exact (of_decide_eq_true h).2
    | set members =>
      rw [hkey] at h
      cases h

theorem rowConfined_iff {c : Campaign} (hc : c ∈ campaigns) (havailable : ∃ n, Available fsNodes nodeID n) :
    RowConfined redis fsNodes nodeID c (movedRow collate (loadActiveNodes fsNodes) nodeID
        (repinnedCampaigns redis campaigns nodeID) c) ↔
      (c.fsNodeId = some nodeID → HasActiveCalls redis c →
        sharing collate c (repinnedCampaigns redis campaigns nodeID) = []) ∧
      (c.fsNodeId ≠ some nodeID →
        ∀ d, (sharing collate c (repinnedCampaigns redis campaigns nodeID)).getLast? = some d →
          ∀ n, nextHealthyNode (atoi d.id).1 nodeID (loadActiveNodes fsNodes) = some n →
            c.fsNodeId = some n.nodeID) := by
  have htarget : ∀ campaignID, nextHealthyNode campaignID nodeID (loadActiveNodes fsNodes) ≠ none := by
    intro campaignID hnone
    obtain ⟨n, hn⟩ := exists_nextHealthyNode campaignID havailable
    rw [hnone] at hn
    cases hn
  have hlast : ∀ d, (sharing collate c (repinnedCampaigns redis campaigns nodeID)).getLast? = some d →
      ∃ n, nextHealthyNode (atoi d.id).1 nodeID (loadActiveNodes fsNodes) = some n ∧
        (movedRow collate (loadActiveNodes fsNodes) nodeID
          (repinnedCampaigns redis campaigns nodeID) c).fsNodeId = some n.nodeID := by
    intro d hd
    obtain ⟨n, hn⟩ := exists_nextHealthyNode (atoi d.id).1 havailable
    exact ⟨n, hn, pin_of_shared hd htarget hn⟩
  constructor
  · intro hrow
    constructor
    · intro hpinned hactive
      by_contra hshared
      obtain ⟨d, hd⟩ := Option.ne_none_iff_exists'.1 (mt List.getLast?_eq_none_iff.1 hshared)
      obtain ⟨n, hn, hpin⟩ := hlast d hd
      rw [hrow.kept (Or.inr hactive), hpinned] at hpin
      exact (nextHealthyNode_available hn).2.2 (Option.some.inj hpin).symm
    · intro hother d hd n hn
      obtain ⟨n', hn', hpin⟩ := hlast d hd
      obtain rfl := Option.some.inj (hn.symm.trans hn')
      rw [← hrow.kept (Or.inl hother)]
      exact hpin
  · rintro ⟨hactiveCase, hotherCase⟩
    refine ⟨movedRow_same _ c, ?_, ?_⟩
    · intro hpinned hidle _
      have hskip : ¬ skipsCampaign redis c = true := fun h => hidle (hasActiveCalls_of_skips h)
      have hself : c ∈ sharing collate c (repinnedCampaigns redis campaigns nodeID) := by
        unfold sharing repinnedCampaigns
        simp [hc, hpinned, hskip]
      obtain ⟨d, hd⟩ := Option.ne_none_iff_exists'.1
        (mt List.getLast?_eq_none_iff.1 (List.ne_nil_of_mem hself))
      obtain ⟨n, hn, hpin⟩ := hlast d hd
      exact ⟨n, nextHealthyNode_available hn, hpin⟩
    · intro hkeep
      by_cases hpinned : c.fsNodeId = some nodeID
      · exact pin_of_unshared (hactiveCase hpinned (hkeep.resolve_left (not_not.2 hpinned)))
      · cases hd : (sharing collate c (repinnedCampaigns redis campaigns nodeID)).getLast? with
        | none => exact pin_of_unshared (List.getLast?_eq_none_iff.1 hd)
        | some d =>
          obtain ⟨n, hn, hpin⟩ := hlast d hd
          rw [hpin]
          exact (hotherCase hpinned d hd n hn).symm

end Rows

theorem repin_confined_iff (collate : String → String) (redis : Keyspace) (fsNodes : List NodeConfig)
    (campaigns : List Campaign) (nodeID : Int) :
    List.Forall₂ (RowConfined redis fsNodes nodeID) campaigns
        (repinCampaigns collate redis fsNodes campaigns nodeID).campaigns ↔
      ConfinedWhen collate redis fsNodes campaigns nodeID := by
  rw [repinCampaigns_campaigns, List.forall₂_map_right_iff, List.forall₂_same]
  unfold ConfinedWhen
  constructor
  · intro h havailable c hc
    exact (rowConfined_iff hc havailable).1 (h c hc)
  · intro h c hc
    by_cases havailable : ∃ n, Available fsNodes nodeID n
    · exact (rowConfined_iff hc havailable).2 (h havailable c hc)
    · have hnone : ∀ campaignID, nextHealthyNode campaignID nodeID (loadActiveNodes fsNodes) = none := by
        intro campaignID
        by_contra hsome
        obtain ⟨n, hn⟩ := Option.ne_none_iff_exists'.1 hsome
        exact havailable ⟨n, nextHealthyNode_available hn⟩
      rw [movedRow_of_unavailable hnone]
      exact ⟨⟨rfl, rfl⟩, fun _ _ h => absurd h havailable, fun _ => rfl⟩

/-- Node 1 has failed, node 2 is active and node 3 is draining. -/
def threeNodes : List NodeConfig :=
  [⟨1, "fs1", 8021, "", 100, .unhealthy⟩, ⟨2, "fs2", 8021, "", 100, .active⟩,
    ⟨3, "fs3", 8021, "", 100, .draining⟩]

/-- A campaign 42 of tenant 1 on the failed node, and one of tenant 2 elsewhere. -/
def sameId : List Campaign := [⟨1, "42", some 1⟩, ⟨2, "42", some 3⟩]

def onCall : Keyspace := fun _ => some (.set ["call-1"])

theorem repin_moves_others :
    ¬ List.Forall₂ (RowConfined (fun _ => none) threeNodes 1) sameId
        (repinCampaigns id (fun _ => none) threeNodes sameId 1).campaigns ∧
      ¬ List.Forall₂ (RowConfined onCall threeNodes 1) [⟨1, "42", some 1⟩]
        (repinCampaigns id onCall threeNodes [⟨1, "42", some 1⟩] 1).campaigns := by
  constructor
  · intro h
    have hmoved : (repinCampaigns id (fun _ => none) threeNodes sameId 1).campaigns =
        [⟨1, "42", some 2⟩, ⟨2, "42", some 2⟩] := by decide
    rw [hmoved] at h
    obtain ⟨-, hrest⟩ := List.forall₂_cons.1 h
    obtain ⟨hrow, -⟩ := List.forall₂_cons.1 hrest
    exact absurd (hrow.kept (Or.inl (by decide))) (by decide)
  · intro h
    have hmoved : (repinCampaigns id onCall threeNodes [⟨1, "42", some 1⟩] 1).campaigns =
        [⟨1, "42", some 2⟩] := by decide
    rw [hmoved] at h
    obtain ⟨hrow, -⟩ := List.forall₂_cons.1 h
    exact absurd (hrow.kept (Or.inr (List.cons_ne_nil "call-1" []))) (by decide)

end Affinity

end Vici2
