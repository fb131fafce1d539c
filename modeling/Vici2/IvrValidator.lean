import Vici2.DepthFirst
import Mathlib.Data.Int.Order.Basic

/-! The check of an IVR graph before it is rendered. Depth and cycles come out of one
depth-first search from the entry node. -/

namespace Vici2

namespace Ivr

open DepthFirst

inductive IvrNodeType
  | collect
  | langSelect
  | terminalIngroup
  | terminalHangup
  | terminalVoicemail
  | terminalTransfer
  | terminalCallback
  deriving DecidableEq, Repr

def IvrNodeType.text : IvrNodeType → String
  | .collect => "collect"
  | .langSelect => "lang_select"
  | .terminalIngroup => "terminal_ingroup"
  | .terminalHangup => "terminal_hangup"
  | .terminalVoicemail => "terminal_voicemail"
  | .terminalTransfer => "terminal_transfer"
  | .terminalCallback => "terminal_callback"

/-- `TERMINAL_NODE_TYPES` -/
def IvrNodeType.terminal : IvrNodeType → Bool
  | .collect | .langSelect => false
  | _ => true

structure ValidatorNode where
  id : Int
  nodeType : IvrNodeType
  deriving DecidableEq, Repr

structure ValidatorEdge where
  fromNodeId : Int
  onInput : String
  toNodeId : Option Int
  deriving DecidableEq, Repr

structure IvrGraph where
  entryNodeId : Option Int
  nodes : List ValidatorNode
  edges : List ValidatorEdge
  deriving DecidableEq, Repr

def phase1MaxDepth : Nat := 3

namespace IvrGraph

def has (g : IvrGraph) (id : Int) : Bool := g.nodes.any (·.id = id)

/-- `adjacency` -/
def outgoing (g : IvrGraph) (id : Int) : List ValidatorEdge :=
  g.edges.filter (·.fromNodeId = id)

def edgeError (g : IvrGraph) (e : ValidatorEdge) : Option String :=
  if ¬ g.has e.fromNodeId then
    some ("Edge references unknown from_node_id " ++ toString e.fromNodeId)
  else
    match e.toNodeId with
    | some target =>
      if ¬ g.has target then
        some ("Edge references unknown to_node_id " ++ toString target)
      else none
    | none => none

def nodeError (g : IvrGraph) (node : ValidatorNode) : Option String :=
  let text := toString node.id ++ " (" ++ node.nodeType.text ++ ")"
  let inputs := (g.outgoing node.id).map (·.onInput)
  if node.nodeType.terminal then
    if g.outgoing node.id ≠ [] then
      some ("Terminal node " ++ text ++ " has outgoing edges — not allowed")
    else none
  else if "__TIMEOUT__" ∉ inputs then some ("Node " ++ text ++ " is missing __TIMEOUT__ edge")
  else if "__INVALID_MAX__" ∉ inputs then
    some ("Node " ++ text ++ " is missing __INVALID_MAX__ edge")
  else none

/-- The loop of `dfs` over the outgoing edges of a node. -/
def follow (dfs : Int → Marks Int → Except String (Marks Int)) (nodeId : Int) :
    List ValidatorEdge → Marks Int → Except String (Marks Int)
  | [], s => .ok s
  | edge :: edges, s =>
    match edge.toNodeId with
    | none => follow dfs nodeId edges s
    | some target =>
      match s.color target with
      | .gray =>
        .error ("IVR tree has a cycle: node " ++ toString nodeId ++ " → node " ++ toString target)
      | .white =>
        match dfs target s with
        | .error e => .error e
        | .ok s => follow dfs nodeId edges s
      | .black => follow dfs nodeId edges s

/-- `dfs` at depth `phase1MaxDepth + 1 - left`; with nothing left the depth exceeds the cap. -/
def dfs (g : IvrGraph) : Nat → Int → Marks Int → Except String (Marks Int)
  | 0, _, _ =>
    .error ("IVR tree depth " ++ toString (phase1MaxDepth + 1) ++ " exceeds Phase 1 cap of " ++
      toString phase1MaxDepth)
  | left + 1, nodeId, s =>
    match follow (dfs g left) nodeId (g.outgoing nodeId)
        { s.paint nodeId .gray with deepest := max s.deepest (phase1MaxDepth - left) } with
    | .error e => .error e
    | .ok s => .ok (s.paint nodeId .black)

def validateIvrGraph (g : IvrGraph) : Except String Nat :=
  if g.nodes = [] then .error "IVR has no nodes"
  else
    match g.entryNodeId with
    | none => .error "IVR has no entry node set"
    | some entry =>
      if entry = 0 then .error "IVR has no entry node set"
      else if ¬ g.has entry then
        .error ("Entry node " ++ toString entry ++ " not found in node list")
      else
        match g.edges.findSome? g.edgeError with
        | some e => .error e
        | none =>
          match g.nodes.findSome? g.nodeError with
          | some e => .error e
          | none => (g.dfs (phase1MaxDepth + 1) entry .start).map Marks.deepest

/-- The nodes that the edges of a node lead to, in the order of the edges. -/
def succ (g : IvrGraph) (nodeId : Int) : List Int :=
  (g.outgoing nodeId).filterMap (·.toNodeId)

/-- Edges reference known nodes, and each node has the edges that its type asks for. -/
structure WellFormed (g : IvrGraph) (entry : Int) : Prop where
  entry : g.entryNodeId = some entry ∧ g.has entry = true
  known : ∀ e ∈ g.edges, g.has e.fromNodeId = true ∧
    ∀ target, e.toNodeId = some target → g.has target = true
  sentinels : ∀ node ∈ g.nodes, node.nodeType.terminal = false →
    (∃ e ∈ g.outgoing node.id, e.onInput = "__TIMEOUT__") ∧
      ∃ e ∈ g.outgoing node.id, e.onInput = "__INVALID_MAX__"
  terminals : ∀ node ∈ g.nodes, node.nodeType.terminal = true → g.outgoing node.id = []

def AcyclicFrom (g : IvrGraph) (entry : Int) : Prop :=
  ∀ v, Reach g.succ entry v → ¬ OnCycle g.succ v

def Shallow (g : IvrGraph) (entry : Int) : Prop :=
  ∀ v n, Walk g.succ entry v n → n ≤ phase1MaxDepth

def Sound (g : IvrGraph) : Prop :=
  ∀ maxDepth, g.validateIvrGraph = .ok maxDepth → ∃ entry, g.entryNodeId = some entry ∧
    g.AcyclicFrom entry ∧ g.Shallow entry ∧
    IsGreatest { n | ∃ v, Walk g.succ entry v n } maxDepth

def Complete (g : IvrGraph) : Prop :=
  ∀ entry, g.WellFormed entry → g.AcyclicFrom entry → g.Shallow entry →
    ∃ maxDepth, g.validateIvrGraph = .ok maxDepth

/-- The first paths from the entry tell whether the graph is too deep, and how deep it is
otherwise. -/
def FirstPathsTell (g : IvrGraph) : Prop :=
  ∀ entry, g.WellFormed entry → g.AcyclicFrom entry →
    if entry = 0 then ¬ g.Shallow entry
    else (∃ v n, FirstPath g.succ entry v n ∧ phase1MaxDepth < n) ∨
      ∃ v n, FirstPath g.succ entry v n ∧ ∀ w m, Walk g.succ entry w m → m ≤ n

def haltText : Halt Int → String
  | .back u v => "IVR tree has a cycle: node " ++ toString u ++ " → node " ++ toString v
  | .deep _ => "IVR tree depth " ++ toString (phase1MaxDepth + 1) ++ " exceeds Phase 1 cap of " ++
      toString phase1MaxDepth

theorem follow_eq (dfs : Int → Marks Int → Except String (Marks Int))
    (search : Int → Marks Int → Except (Halt Int) (Marks Int)) (nodeId : Int)
    (hdfs : ∀ u s, dfs u s = (search u s).mapError haltText) (edges : List ValidatorEdge)
    (s : Marks Int) :
    follow dfs nodeId edges s =
      (scan search nodeId (edges.filterMap (·.toNodeId)) s).mapError haltText := by
  induction edges generalizing s with
  | nil => rfl
  | cons edge edges ih =>
    cases htarget : edge.toNodeId with
    | none =>
      rw [List.filterMap_cons_none htarget, ← ih s]
      simp only [follow, htarget]
    | some target =>
      rw [List.filterMap_cons_some htarget]
      simp only [follow, scan, htarget]
      cases hcolor : s.color target with
      | gray => rfl
      | black => exact ih s
      | white =>
        dsimp only
        rw [hdfs target s]
        cases hsearch : search target s with
        | error e => rfl
        | ok s₁ => exact ih s₁

theorem dfs_eq (g : IvrGraph) (left : Nat) (nodeId : Int) (s : Marks Int) :
    g.dfs left nodeId s = (visit g.succ phase1MaxDepth left nodeId s).mapError haltText := by
  induction left generalizing nodeId s with
  | zero => rfl
  | succ left ih =>
    have hfollow := follow_eq (g.dfs left) (visit g.succ phase1MaxDepth left) nodeId ih
      (g.outgoing nodeId) { s.paint nodeId .gray with
        deepest := max s.deepest (phase1MaxDepth - left) }
    simp only [dfs, visit, hfollow, succ]
    cases scan (visit g.succ phase1MaxDepth left) nodeId
      ((g.outgoing nodeId).filterMap (·.toNodeId)) { s.paint nodeId .gray with
        deepest := max s.deepest (phase1MaxDepth - left) } with
    | error e => rfl
    | ok s₁ => rfl

theorem edgeError_eq_none_iff {g : IvrGraph} {e : ValidatorEdge} :
    g.edgeError e = none ↔ g.has e.fromNodeId = true ∧
      ∀ target, e.toNodeId = some target → g.has target = true := by
  unfold edgeError
  cases htarget : e.toNodeId with
  | none => simp
  | some target =>
    cases hfrom : g.has e.fromNodeId with
    | false => simp
    | true => cases hto : g.has target <;> simp [hto]

theorem nodeError_eq_none_iff {g : IvrGraph} {node : ValidatorNode} :
    g.nodeError node = none ↔
      (node.nodeType.terminal = false →
        (∃ e ∈ g.outgoing node.id, e.onInput = "__TIMEOUT__") ∧
          ∃ e ∈ g.outgoing node.id, e.onInput = "__INVALID_MAX__") ∧
      (node.nodeType.terminal = true → g.outgoing node.id = []) := by
  have hmem : ∀ x, x ∈ (g.outgoing node.id).map (·.onInput) ↔
      ∃ e ∈ g.outgoing node.id, e.onInput = x := fun x => List.mem_map
  cases hterminal : node.nodeType.terminal with
  | true => simp [nodeError, hterminal]
  | false =>
    simp only [nodeError, hterminal, ← hmem]
    by_cases htimeout : "__TIMEOUT__" ∈ (g.outgoing node.id).map (·.onInput)
    · by_cases hinvalid : "__INVALID_MAX__" ∈ (g.outgoing node.id).map (·.onInput)
      · simp [htimeout, hinvalid]
      · simp [htimeout, hinvalid]
    · simp [htimeout]

theorem wellFormed_iff {g : IvrGraph} {entry : Int} :
    g.WellFormed entry ↔ g.entryNodeId = some entry ∧ g.has entry = true ∧
      g.edges.findSome? g.edgeError = none ∧ g.nodes.findSome? g.nodeError = none := by
  simp only [List.findSome?_eq_none_iff, edgeError_eq_none_iff, nodeError_eq_none_iff]
  constructor
  · rintro ⟨⟨hentry, hhas⟩, hknown, hsentinels, hterminals⟩
    exact ⟨hentry, hhas, hknown, fun n hn => ⟨hsentinels n hn, hterminals n hn⟩⟩
  · rintro ⟨hentry, hhas, hknown, hnodes⟩
    exact ⟨⟨hentry, hhas⟩, hknown, fun n hn => (hnodes n hn).1, fun n hn => (hnodes n hn).2⟩

theorem validateIvrGraph_of_wellFormed {g : IvrGraph} {entry : Int} (h : g.WellFormed entry)
    (hentry : entry ≠ 0) :
    g.validateIvrGraph =
      ((visit g.succ phase1MaxDepth (phase1MaxDepth + 1) entry .start).mapError haltText).map
        Marks.deepest := by
  obtain ⟨hid, hhas, hedges, hnodes⟩ := wellFormed_iff.1 h
  have hne : g.nodes ≠ [] := by
    intro hnil
    simp [has, hnil] at hhas
  simp only [validateIvrGraph, if_neg hne, hid, if_neg hentry, hhas, hedges, hnodes, dfs_eq]
  simp

theorem wellFormed_of_ok {g : IvrGraph} {maxDepth : Nat} (h : g.validateIvrGraph = .ok maxDepth) :
    ∃ entry, g.WellFormed entry ∧ entry ≠ 0 := by
  unfold validateIvrGraph at h
  split_ifs at h with hnodes
  cases hid : g.entryNodeId with
  | none => simp [hid] at h
  | some entry =>
    simp only [hid] at h
    split_ifs at h with hzero hhas
    cases hedges : g.edges.findSome? g.edgeError with
    | some e => simp [hedges] at h
    | none =>
      cases hnode : g.nodes.findSome? g.nodeError with
      | some e => simp [hedges, hnode] at h
      | none =>
        have hhas' : g.has entry = true := by simpa using hhas
        exact ⟨entry, wellFormed_iff.2 ⟨hid, hhas', hedges, hnode⟩, hzero⟩

theorem WellFormed.entry_eq {g : IvrGraph} {entry entry' : Int} (h : g.WellFormed entry)
    (h' : g.entryNodeId = some entry') : entry' = entry :=
  Option.some.inj (h'.symm.trans h.entry.1)

/-- The search of a well-formed graph, and what its two outcomes say. -/
theorem validateIvrGraph_spec {g : IvrGraph} {entry : Int} (h : g.WellFormed entry)
    (hentry : entry ≠ 0) :
    (∃ d, g.validateIvrGraph = .ok d ∧ g.AcyclicFrom entry ∧ d ≤ phase1MaxDepth ∧
        IsGreatest { n | ∃ v, FirstPath g.succ entry v n } d) ∨
      ((∀ d, g.validateIvrGraph ≠ .ok d) ∧
        (¬ g.AcyclicFrom entry ∨ ∃ v n, FirstPath g.succ entry v n ∧ phase1MaxDepth < n)) := by
  have hval := validateIvrGraph_of_wellFormed h hentry
  cases hvisit : visit g.succ phase1MaxDepth (phase1MaxDepth + 1) entry .start with
  | ok s =>
    left
    rw [hvisit] at hval
    exact ⟨s.deepest, hval, visit_ok hvisit⟩
  | error e =>
    right
    rw [hvisit] at hval
    refine ⟨fun d hd => ?_, ?_⟩
    · rw [hval] at hd
      cases hd
    · rcases visit_error hvisit with ⟨v, hreach, hcycle⟩ | hdeep
      · exact Or.inl fun hacyclic => hacyclic v hreach hcycle
      · exact Or.inr hdeep

/-- The check is right about a graph exactly where first paths are: a node that is first
reached early keeps that depth, however late another path comes to it. -/
theorem validateIvrGraph_right_iff (g : IvrGraph) : g.Sound ∧ g.Complete ↔ g.FirstPathsTell := by
  constructor
  · rintro ⟨hsound, hcomplete⟩ entry hwf hacyclic
    by_cases hzero : entry = 0
    · rw [if_pos hzero]
      intro hshallow
      obtain ⟨d, hd⟩ := hcomplete entry hwf hacyclic hshallow
      obtain ⟨entry', hwf', hne⟩ := wellFormed_of_ok hd
      exact hne ((hwf.entry_eq hwf'.entry.1).trans hzero)
    · rw [if_neg hzero]
      rcases validateIvrGraph_spec hwf hzero with ⟨d, hd, -, -, ⟨v, hv⟩, -⟩ | ⟨hno, hfault⟩
      · right
        obtain ⟨entry', hid, -, -, hlongest⟩ := hsound d hd
        obtain rfl := hwf.entry_eq hid
        exact ⟨v, d, hv, fun w m hm => hlongest.2 ⟨w, hm⟩⟩
      · left
        exact hfault.resolve_left fun h => h hacyclic
  · intro htell
    constructor
    · intro d hd
      obtain ⟨entry, hwf, hzero⟩ := wellFormed_of_ok hd
      rcases validateIvrGraph_spec hwf hzero with ⟨d', hd', hacyclic, hcap, hdeepest⟩ | ⟨hno, -⟩
      · obtain rfl : d' = d := Except.ok.inj (hd'.symm.trans hd)
        have htell' := htell entry hwf hacyclic
        rw [if_neg hzero] at htell'
        rcases htell' with ⟨v, n, hn, hlong⟩ | ⟨v, n, hn, hlongest⟩
        · have hle := hdeepest.2 ⟨v, hn⟩
          omega
        · have hle : n ≤ d' := hdeepest.2 ⟨v, hn⟩
          obtain ⟨w, hw⟩ := hdeepest.1
          refine ⟨entry, hwf.entry.1, hacyclic, ?_, ⟨w, hw.walk⟩, ?_⟩
          · intro x m hm
            have hm' := hlongest x m hm
            omega
          · rintro m ⟨x, hm⟩
            exact (hlongest x m hm).trans hle
      · exact absurd hd (hno d)
    · intro entry hwf hacyclic hshallow
      have htell' := htell entry hwf hacyclic
      by_cases hzero : entry = 0
      · rw [if_pos hzero] at htell'
        exact absurd hshallow htell'
      · rcases validateIvrGraph_spec hwf hzero with ⟨d, hd, -⟩ | ⟨-, hfault⟩
        · exact ⟨d, hd⟩
        · rcases hfault with hcycle | ⟨v, n, hn, hlong⟩
          · exact absurd hacyclic hcycle
          · have hle := hshallow v n hn.walk
            omega

def sentinelsOf (id target : Int) : List ValidatorEdge :=
  [⟨id, "__TIMEOUT__", some target⟩, ⟨id, "__INVALID_MAX__", some target⟩]

/-- Each node of the chain 1, 2, 3, 4, 5 is first reached from node 1. -/
def fan : IvrGraph where
  entryNodeId := some 1
  nodes := [⟨1, .collect⟩, ⟨2, .collect⟩, ⟨3, .collect⟩, ⟨4, .collect⟩, ⟨5, .terminalHangup⟩]
  edges := sentinelsOf 1 5 ++ [⟨1, "4", some 4⟩, ⟨1, "3", some 3⟩, ⟨1, "2", some 2⟩] ++
    sentinelsOf 4 5 ++ ⟨3, "4", some 4⟩ :: sentinelsOf 3 5 ++ ⟨2, "3", some 3⟩ :: sentinelsOf 2 5

theorem fan_accepted_at_depth_one :
    fan.validateIvrGraph = .ok 1 ∧ Walk fan.succ 1 5 4 ∧ ¬ fan.Sound := by
  have hok : fan.validateIvrGraph = .ok 1 := by decide +kernel
  have hwalk : Walk fan.succ 1 5 4 :=
    .step (v := 2) (by decide) (.step (v := 3) (by decide) (.step (v := 4) (by decide)
      (.step (v := 5) (by decide) (.refl 5))))
  refine ⟨hok, hwalk, fun hsound => ?_⟩
  obtain ⟨entry, hentry, -, hshallow, -⟩ := hsound 1 hok
  obtain rfl : 1 = entry := Option.some.inj hentry
  exact absurd (hshallow 5 4 hwalk) (by decide)

end IvrGraph

end Ivr

end Vici2
