import Vici2.Delimited
import Vici2.IvrDialplan

/-! Whether the generated dialplan sends a call where the IVR's graph says. -/

namespace Vici2

namespace Ivr

open DepthFirst

def digitsText (digits : List Dtmf) : String := String.ofList (digits.map Dtmf.char)

namespace BuilderIvr

def edgeFor (ivr : BuilderIvr) (node : BuilderNode) (onInput : String) : Option BuilderEdge :=
  (ivr.nodeEdges node.id).find? (·.onInput = onInput)

/-- The node that the edge for the timeout, or the one for too many invalid inputs, names. -/
def namedBy (ivr : BuilderIvr) (node : BuilderNode) (onInput : String) : Option Int :=
  (ivr.edgeFor node onInput).bind BuilderEdge.toNodeId

/-- The node that the graph sends the call to. -/
def wanted (ivr : BuilderIvr) (node : BuilderNode) (digits : List Dtmf) (count : Nat) :
    Option Int :=
  if digits = [] then ivr.namedBy node "__TIMEOUT__"
  else
    match ivr.edgeFor node (digitsText digits) with
    | some edge => edge.toNodeId
    | none =>
      if count + 1 < node.invalidMax then some node.id else ivr.namedBy node "__INVALID_MAX__"

def Dispatched (ivr : BuilderIvr) (pcre : Pcre) (node : BuilderNode) (digits : List Dtmf)
    (count : Nat) : Prop :=
  ∃ target, ivr.wanted node digits count = some target ∧
    ivr.dispatch pcre node digits count = some (nodeExtName ivr.id target)

/-- Every transfer of the node's branch and invalid check leads to a generated extension. -/
def TargetsGenerated (ivr : BuilderIvr) (node : BuilderNode) : Prop :=
  let edges := ivr.nodeEdges node.id
  ∀ target ∈ (buildBranchExtension ivr.id node edges).transferTargets ++
      (buildInvalidCheckExtension ivr.id node edges).transferTargets,
    target ∈ (buildDefaultContextXml ivr).map Extension.name

/-- The text of an edge, taken as a regular expression, matches the whole input. -/
def edgeMatches (pcre : Pcre) (digits : List Dtmf) (edge : BuilderEdge) : Bool :=
  pcre.test ('^' :: edge.onInput.toList.map blank ++ ['$']) (digits.map Dtmf.char)

/-- The first input edge by `sortOrder` whose text matches the input. -/
def firstInput (ivr : BuilderIvr) (pcre : Pcre) (node : BuilderNode) (digits : List Dtmf) :
    Option BuilderEdge :=
  ((sortEdges (ivr.nodeEdges node.id)).filter fun e => ¬ sentinel e.onInput).find?
    (edgeMatches pcre digits)

/-- The edge for too many invalid inputs names a node. If the text of some input edge
matches the input, the first such edge leads where the graph wants. Otherwise the input is
empty and the timeout edge names a node, or the pattern for the count tells the count
right. -/
def RightOn (ivr : BuilderIvr) (pcre : Pcre) (node : BuilderNode) (digits : List Dtmf)
    (count : Nat) : Prop :=
  ∃ maxNode, ivr.namedBy node "__INVALID_MAX__" = some maxNode ∧
    match ivr.firstInput pcre node digits with
    | some edge => ivr.wanted node digits count = some (edge.toNodeId.getD node.id)
    | none =>
      if digits = [] then (ivr.namedBy node "__TIMEOUT__").isSome = true
      else
        match ivr.edgeFor node (digitsText digits) with
        | some edge =>
          edge.toNodeId =
            some (if CountMatches node.invalidMax (count + 1) then maxNode else node.id)
        | none =>
          maxNode = node.id ∨
            (CountMatches node.invalidMax (count + 1) ↔ node.invalidMax ≤ count + 1)

end BuilderIvr

theorem nodeExtName_inj {ivrId a b : Int} (ha : 0 < a) (hb : 0 < b)
    (h : nodeExtName ivrId a = nodeExtName ivrId b) : a = b := by
  obtain ⟨m, rfl⟩ := Int.eq_ofNat_of_zero_le (Int.le_of_lt ha)
  obtain ⟨n, rfl⟩ := Int.eq_ofNat_of_zero_le (Int.le_of_lt hb)
  have hrepr : m.repr = n.repr := by
    unfold nodeExtName at h
    exact (String.append_right_inj _).1 h
  rw [Delimited.natRepr_inj hrepr]

theorem newline_not_mem_digits (digits : List Dtmf) : '\n' ∉ digits.map Dtmf.char := by
  intro h
  obtain ⟨k, -, hk⟩ := List.mem_map.1 h
  cases k with
  | digit n =>
    have hdigit := isDigit_digitChar n.isLt
    exact ne_newline_of_isDigit hdigit hk
  | _ => exact absurd hk (by decide)

theorem digitsText_eq_empty {digits : List Dtmf} : digitsText digits = "" ↔ digits = [] := by
  cases digits with
  | nil => simp [digitsText]
  | cons k digits => simp [digitsText]

theorem find?_perm {α β : Type*} [DecidableEq β] {f : α → β} {l l' : List α} (hperm : l.Perm l')
    (hnodup : (l.map f).Nodup) (x : β) : l.find? (f · = x) = l'.find? (f · = x) := by
  cases hfind : l.find? (f · = x) with
  | none =>
    symm
    rw [List.find?_eq_none] at hfind ⊢
    exact fun e he => hfind e (hperm.mem_iff.2 he)
  | some e =>
    have he := List.mem_of_find?_eq_some hfind
    have hx : f e = x := by simpa using List.find?_some hfind
    cases hfind' : l'.find? (f · = x) with
    | none =>
      have hnone := List.find?_eq_none.1 hfind' e (hperm.mem_iff.1 he)
      exact absurd hx (by simpa using hnone)
    | some e' =>
      have he' := hperm.mem_iff.2 (List.mem_of_find?_eq_some hfind')
      have hx' : f e' = x := by simpa using List.find?_some hfind'
      exact congrArg some (List.inj_on_of_nodup_map hnodup he he' (hx.trans hx'.symm))

variable {ivr : BuilderIvr} {node : BuilderNode} {pcre : Pcre}

theorem inputs_nodup_nodeEdges (ivr : BuilderIvr) (id : Int) :
    ((ivr.nodeEdges id).map BuilderEdge.onInput).Nodup := by
  have hsub : (ivr.nodeEdges id).Sublist ivr.edges := List.filter_sublist
  have hpairs := (hsub.map fun e => (e.fromNodeId, e.onInput)).nodup ivr.inputs_nodup
  have hinj : ∀ x ∈ ivr.nodeEdges id, ∀ y ∈ ivr.nodeEdges id, x.onInput = y.onInput → x = y := by
    intro x hx y hy hxy
    have hfx : x.fromNodeId = id := by simpa using (List.mem_filter.1 hx).2
    have hfy : y.fromNodeId = id := by simpa using (List.mem_filter.1 hy).2
    have hkey : (x.fromNodeId, x.onInput) = (y.fromNodeId, y.onInput) := by rw [hfx, hfy, hxy]
    exact List.inj_on_of_nodup_map hpairs hx hy hkey
  exact (List.nodup_map_iff_inj_on hpairs.of_map).2 hinj

theorem sortEdges_perm (edges : List BuilderEdge) : (sortEdges edges).Perm edges :=
  List.perm_insertionSort _ edges

theorem find?_sortEdges (ivr : BuilderIvr) (node : BuilderNode) (onInput : String) :
    (sortEdges (ivr.nodeEdges node.id)).find? (·.onInput = onInput) = ivr.edgeFor node onInput :=
  (find?_perm (sortEdges_perm _).symm (inputs_nodup_nodeEdges ivr node.id) onInput).symm

def BuilderIvr.Accepted (ivr : BuilderIvr) : Prop :=
  ∃ maxDepth, ivr.graph.validateIvrGraph = .ok maxDepth

theorem BuilderIvr.Accepted.target_mem (h : ivr.Accepted) {edge : BuilderEdge}
    (hedge : edge ∈ ivr.edges) {target : Int} (ht : edge.toNodeId = some target) :
    ∃ node ∈ ivr.nodes, node.id = target := by
  obtain ⟨maxDepth, hok⟩ := h
  obtain ⟨entry, hwf, -⟩ := IvrGraph.wellFormed_of_ok hok
  have hknown := (hwf.known ⟨edge.fromNodeId, edge.onInput, edge.toNodeId⟩
    (List.mem_map_of_mem hedge)).2 target ht
  simpa [IvrGraph.has, BuilderIvr.graph] using hknown

theorem BuilderIvr.Accepted.target_eq (h : ivr.Accepted) {edge : BuilderEdge}
    (hedge : edge ∈ ivr.edges) : edge.target = edge.toNodeId := by
  cases ht : edge.toNodeId with
  | none => simp [BuilderEdge.target, ht]
  | some target =>
    obtain ⟨node, hnode, hid⟩ := h.target_mem hedge ht
    have hpos := ivr.ids_pos node hnode
    have hne : target ≠ 0 := by omega
    simp [BuilderEdge.target, ht, hne]

theorem mem_edges_of_nodeEdges {edge : BuilderEdge} {id : Int} (h : edge ∈ ivr.nodeEdges id) :
    edge ∈ ivr.edges := (List.mem_filter.1 h).1

theorem edgeFor_mem {onInput : String} {edge : BuilderEdge}
    (h : ivr.edgeFor node onInput = some edge) : edge ∈ ivr.edges :=
  mem_edges_of_nodeEdges (List.mem_of_find?_eq_some h)

theorem BuilderIvr.Accepted.bind_target (h : ivr.Accepted) (node : BuilderNode) (onInput : String) :
    (ivr.edgeFor node onInput).bind BuilderEdge.target = ivr.namedBy node onInput := by
  unfold BuilderIvr.namedBy
  cases hedge : ivr.edgeFor node onInput with
  | none => rfl
  | some edge => exact h.target_eq (edgeFor_mem hedge)

theorem BuilderIvr.Accepted.namedBy_mem (h : ivr.Accepted) {onInput : String} {target : Int}
    (hb : ivr.namedBy node onInput = some target) : ∃ n ∈ ivr.nodes, n.id = target := by
  obtain ⟨edge, hfor, hto⟩ := Option.bind_eq_some_iff.1 hb
  exact h.target_mem (edgeFor_mem hfor) hto

theorem BuilderIvr.Accepted.namedBy_pos (h : ivr.Accepted) {onInput : String} {target : Int}
    (hb : ivr.namedBy node onInput = some target) : 0 < target := by
  obtain ⟨n, hn, rfl⟩ := h.namedBy_mem hb
  exact ivr.ids_pos n hn

theorem digitVar_ne_count (node : BuilderNode) : "ivr_invalid_count" ≠ digitVar node := by
  intro h
  have htake := congrArg (fun s => s.toList.take 5) h
  simp [digitVar] at htake

theorem test_any (digits : List Dtmf) : pcre.test "^.*$".toList (digits.map Dtmf.char) = true :=
  pcre.any _ (newline_not_mem_digits digits)

theorem test_empty (digits : List Dtmf) :
    pcre.test "^$".toList (digits.map Dtmf.char) = true ↔ digits = [] := by
  have hplain := pcre.plain [] (digits.map Dtmf.char) (by simp) (newline_not_mem_digits digits)
  simpa using hplain

theorem readAttr_countExpression (m : Nat) : readAttr (countExpression m) = countExpression m := by
  apply readAttr_plain
  have hplain : ∀ c ∈ "^([-9]|[1-9][0-9]+)$".toList, c ≠ '&' ∧ blank c = c := by
    simp [blank]
  intro c hc
  rcases List.mem_append.1 hc with hc | hc
  · rcases List.mem_append.1 hc with hc | hc
    · exact hplain c (List.mem_append_left "-9]|[1-9][0-9]+)$".toList hc)
    · have hdigit := isDigit_of_mem_toDigits hc
      constructor
      · rintro rfl
        exact absurd hdigit (by decide)
      · unfold blank
        rw [if_neg]
        rintro (rfl | rfl | rfl) <;> exact absurd hdigit (by decide)
  · exact hplain c (List.mem_append_right "^([".toList hc)

theorem transferTarget_edgeCondition (ivrId : Int) (node : BuilderNode) (edge : BuilderEdge) :
    transferTarget (edgeCondition ivrId node edge).actions =
      some (nodeExtName ivrId (edge.target.getD node.id)) := by
  unfold edgeCondition transferTarget
  split_ifs <;> rfl

def BuilderIvr.afterInvalid (ivr : BuilderIvr) (node : BuilderNode) (count : Nat) : String :=
  if CountMatches node.invalidMax (count + 1) then
    match ivr.namedBy node "__INVALID_MAX__" with
    | some target => nodeExtName ivr.id target
    | none => fsIvrSys ++ "/sys_goodbye.wav"
  else nodeExtName ivr.id node.id

theorem BuilderIvr.Accepted.invalidCheck (h : ivr.Accepted) (digits : List Dtmf) (count : Nat) :
    ((buildInvalidCheckExtension ivr.id node (ivr.nodeEdges node.id)).firstMatch pcre
        (branchChannel node digits (count + 1))).bind transferTarget =
      some (ivr.afterInvalid node count) := by
  have hchannel : branchChannel node digits (count + 1) (.channelVar "ivr_invalid_count") =
      Nat.toDigits 10 (count + 1) := by
    simp [branchChannel, digitVar_ne_count]
  have hline : '\n' ∉ Nat.toDigits 10 (count + 1) :=
    fun hmem => ne_newline_of_isDigit (isDigit_of_mem_toDigits hmem) rfl
  have hany : pcre.test (readAttr "^.*$".toList) (Nat.toDigits 10 (count + 1)) = true :=
    pcre.any _ hline
  have hcount := test_countExpression pcre node.invalidMax (count + 1)
  have hmax := h.bind_target node "__INVALID_MAX__"
  unfold BuilderIvr.edgeFor at hmax
  simp only [buildInvalidCheckExtension, Extension.firstMatch, List.find?_cons, hchannel,
    readAttr_countExpression, hany, hmax, BuilderIvr.afterInvalid]
  by_cases hc : CountMatches node.invalidMax (count + 1)
  · rw [if_pos hc, hcount.2 hc]
    rfl
  · rw [if_neg hc, Bool.eq_false_iff.2 (mt hcount.1 hc)]
    rfl

theorem find?_edgeConditions (ivrId : Int) (digits : List Dtmf) (count : Nat)
    (edges : List BuilderEdge) :
    (edges.map (edgeCondition ivrId node)).find? (fun c =>
        pcre.test (readAttr c.expression) (branchChannel node digits count c.field)) =
      (edges.find? (BuilderIvr.edgeMatches pcre digits)).map (edgeCondition ivrId node) := by
  have hp : (fun e => pcre.test (readAttr (edgeCondition ivrId node e).expression)
      (branchChannel node digits count (edgeCondition ivrId node e).field)) =
        BuilderIvr.edgeMatches pcre digits := by
    funext e
    simp only [edgeCondition, readAttr_edgeExpression, branchChannel, if_true,
      BuilderIvr.edgeMatches]
  rw [List.find?_map]
  exact congrArg (fun p => (edges.find? p).map (edgeCondition ivrId node)) hp

theorem BuilderIvr.Accepted.branch (h : ivr.Accepted) (digits : List Dtmf) (count : Nat) :
    (buildBranchExtension ivr.id node (ivr.nodeEdges node.id)).firstMatch pcre
        (branchChannel node digits count) =
      match ivr.firstInput pcre node digits with
      | some edge => some (edgeCondition ivr.id node edge).actions
      | none =>
        match (if digits = [] then ivr.namedBy node "__TIMEOUT__" else none) with
        | some target => some [.transfer (nodeExtName ivr.id target)]
        | none => some (invalidCondition ivr.id node).actions := by
  have hedges := @find?_edgeConditions node pcre ivr.id digits count
    ((sortEdges (ivr.nodeEdges node.id)).filter fun e => ¬ sentinel e.onInput)
  have htimeout := find?_sortEdges ivr node "__TIMEOUT__"
  have hbind := h.bind_target node "__TIMEOUT__"
  have hany : pcre.test (readAttr ['^', '.', '*', '$']) (digits.map Dtmf.char) = true :=
    test_any digits
  have hempty : pcre.test (readAttr ['^', '$']) (digits.map Dtmf.char) =
      decide (digits = []) := by
    have hiff := @test_empty pcre digits
    by_cases hd : digits = []
    · rw [decide_eq_true hd]
      exact hiff.2 hd
    · rw [decide_eq_false hd]
      exact Bool.eq_false_iff.2 (mt hiff.1 hd)
  simp only [buildBranchExtension, Extension.firstMatch, List.find?_append, hedges,
    timeoutConditions, htimeout, hbind, BuilderIvr.firstInput]
  cases List.find? (BuilderIvr.edgeMatches pcre digits)
      ((sortEdges (ivr.nodeEdges node.id)).filter fun e => ¬ sentinel e.onInput) with
  | some edge => rfl
  | none =>
    cases ivr.namedBy node "__TIMEOUT__" with
    | none => simp [invalidCondition, branchChannel, hany]
    | some target =>
      by_cases hd : digits = []
      · subst hd
        have htest : pcre.test (readAttr ['^', '$']) [] = true :=
          hempty.trans (decide_eq_true rfl)
        simp [branchChannel, htest]
      · simp [branchChannel, hempty, hd, invalidCondition, hany]

/-- The extension that the branch and the invalid check transfer to. -/
theorem BuilderIvr.Accepted.dispatch_eq (h : ivr.Accepted) (digits : List Dtmf) (count : Nat) :
    ivr.dispatch pcre node digits count =
      match ivr.firstInput pcre node digits with
      | some edge => some (nodeExtName ivr.id (edge.target.getD node.id))
      | none =>
        match (if digits = [] then ivr.namedBy node "__TIMEOUT__" else none) with
        | some target => some (nodeExtName ivr.id target)
        | none => some (ivr.afterInvalid node count) := by
  have hinvalid := @BuilderIvr.Accepted.invalidCheck ivr node pcre h digits count
  have hbranch := @BuilderIvr.Accepted.branch ivr node pcre h digits count
  unfold BuilderIvr.dispatch
  dsimp only
  rw [hbranch]
  cases ivr.firstInput pcre node digits with
  | some edge => simp only [transferTarget_edgeCondition]
  | none =>
    cases (if digits = [] then ivr.namedBy node "__TIMEOUT__" else none) with
    | some target => rfl
    | none => exact hinvalid

theorem wanted_pos (hnode : node ∈ ivr.nodes) (h : ivr.Accepted) {digits : List Dtmf}
    {count : Nat} {target : Int} (ht : ivr.wanted node digits count = some target) :
    0 < target := by
  unfold BuilderIvr.wanted at ht
  by_cases hd : digits = []
  · rw [if_pos hd] at ht
    exact h.namedBy_pos ht
  · rw [if_neg hd] at ht
    cases hfor : ivr.edgeFor node (digitsText digits) with
    | some edge =>
      rw [hfor] at ht
      obtain ⟨n, hn, rfl⟩ := h.target_mem (edgeFor_mem hfor) ht
      exact ivr.ids_pos n hn
    | none =>
      rw [hfor] at ht
      by_cases hc : count + 1 < node.invalidMax
      · simp only [if_pos hc, Option.some.injEq] at ht
        exact ht ▸ ivr.ids_pos node hnode
      · simp only [if_neg hc] at ht
        exact h.namedBy_pos ht

theorem firstInput_mem {digits : List Dtmf} {edge : BuilderEdge}
    (h : ivr.firstInput pcre node digits = some edge) : edge ∈ ivr.edges := by
  have hmem := List.mem_of_find?_eq_some h
  exact mem_edges_of_nodeEdges ((sortEdges_perm _).mem_iff.1 (List.mem_filter.1 hmem).1)

theorem name_mem_context {n : BuilderNode} (hn : n ∈ ivr.nodes) :
    nodeExtName ivr.id n.id ∈ (buildDefaultContextXml ivr).map Extension.name := by
  have hfirst : ∃ ext ∈ ivr.nodeExtensions n, ext.name = nodeExtName ivr.id n.id := by
    unfold BuilderIvr.nodeExtensions
    split_ifs
    · exact ⟨_, List.mem_cons_self, rfl⟩
    · exact ⟨_, List.mem_cons_self, rfl⟩
    · exact ⟨_, List.mem_cons_self, rfl⟩
  obtain ⟨ext, hext, hname⟩ := hfirst
  exact List.mem_map.2 ⟨ext, List.mem_flatMap.2 ⟨n, hn, hext⟩, hname⟩

theorem head_nodeExtName (ivrId id : Int) (t : String) :
    (nodeExtName ivrId id ++ t).toList.head? = some 'i' := by
  simp [nodeExtName]

theorem head_of_mem_context {name : String}
    (h : name ∈ (buildDefaultContextXml ivr).map Extension.name) :
    name.toList.head? = some 'i' := by
  obtain ⟨ext, hext, rfl⟩ := List.mem_map.1 h
  obtain ⟨n, -, hn⟩ := List.mem_flatMap.1 hext
  have hown : (nodeExtName ivr.id n.id).toList.head? = some 'i' := by
    simpa using head_nodeExtName ivr.id n.id ""
  have hcallback : (buildCallbackDispatchExtension n).name.toList.head? = some 'i' := by
    have hname : (buildCallbackDispatchExtension n).name =
        "ivr_callback_dispatch_" ++ toString n.id := rfl
    rw [hname]
    simp
  unfold BuilderIvr.nodeExtensions at hn
  split_ifs at hn
  · simp only [List.mem_cons, List.not_mem_nil, or_false] at hn
    rcases hn with rfl | rfl
    · exact hown
    · exact hcallback
  · simp only [List.mem_cons, List.not_mem_nil, or_false] at hn
    subst hn
    exact hown
  · simp only [List.mem_cons, List.not_mem_nil, or_false] at hn
    rcases hn with rfl | rfl | rfl
    · exact hown
    · exact head_nodeExtName ivr.id n.id "_branch"
    · exact head_nodeExtName ivr.id n.id "_invalid_check"

theorem mem_transferTargets {ext : Extension} {t : String} :
    t ∈ ext.transferTargets ↔ ∃ c ∈ ext.conditions, .transfer t ∈ c.actions := by
  unfold Extension.transferTargets
  rw [List.mem_filterMap]
  constructor
  · rintro ⟨action, haction, ht⟩
    obtain ⟨c, hc, hmem⟩ := List.mem_flatMap.1 haction
    cases action with
    | transfer extension =>
      obtain rfl := Option.some.inj ht
      exact ⟨c, hc, hmem⟩
    | _ => cases ht
  · rintro ⟨c, hc, hmem⟩
    exact ⟨_, List.mem_flatMap.2 ⟨c, hc, hmem⟩, rfl⟩

/-- Where the branch transfers: an input edge's node, or the node for the timeout. -/
theorem BuilderIvr.Accepted.branch_targets (h : ivr.Accepted) {t : String}
    (ht : t ∈ (buildBranchExtension ivr.id node (ivr.nodeEdges node.id)).transferTargets) :
    (∃ edge ∈ ivr.edges, t = nodeExtName ivr.id (edge.target.getD node.id)) ∨
      ∃ target, ivr.namedBy node "__TIMEOUT__" = some target ∧ t = nodeExtName ivr.id target := by
  obtain ⟨c, hc, hmem⟩ := mem_transferTargets.1 ht
  rcases List.mem_append.1 hc with hc | hc
  · rcases List.mem_append.1 hc with hc | hc
    · obtain ⟨edge, hin, rfl⟩ := List.mem_map.1 hc
      have hin' : edge ∈ ivr.edges :=
        mem_edges_of_nodeEdges ((sortEdges_perm _).mem_iff.1 (List.mem_filter.1 hin).1)
      refine Or.inl ⟨edge, hin', ?_⟩
      unfold edgeCondition at hmem
      split_ifs at hmem <;> simpa using hmem
    · right
      unfold timeoutConditions at hc
      rw [find?_sortEdges, h.bind_target] at hc
      cases htimeout : ivr.namedBy node "__TIMEOUT__" with
      | none => simp [htimeout] at hc
      | some target =>
        simp only [htimeout, List.mem_singleton] at hc
        subst hc
        exact ⟨target, rfl, by simpa using hmem⟩
  · rw [List.mem_singleton.1 hc] at hmem
    simp [invalidCondition] at hmem

theorem BuilderIvr.Accepted.invalidCheck_targets (h : ivr.Accepted) {maxNode : Int}
    (hmax : ivr.namedBy node "__INVALID_MAX__" = some maxNode) {t : String}
    (ht : t ∈ (buildInvalidCheckExtension ivr.id node (ivr.nodeEdges node.id)).transferTargets) :
    t = nodeExtName ivr.id maxNode ∨ t = nodeExtName ivr.id node.id := by
  have hbind := h.bind_target node "__INVALID_MAX__"
  unfold BuilderIvr.edgeFor at hbind
  obtain ⟨c, hc, hmem⟩ := mem_transferTargets.1 ht
  simp only [buildInvalidCheckExtension, hbind, hmax, List.mem_cons, List.not_mem_nil,
    or_false] at hc
  rcases hc with rfl | rfl
  · exact Or.inl (by simpa using hmem)
  · exact Or.inr (by simpa using hmem)

/-- Without a node for too many invalid inputs the check transfers to a sound file. -/
theorem BuilderIvr.Accepted.goodbye_target (h : ivr.Accepted)
    (hmax : ivr.namedBy node "__INVALID_MAX__" = none) :
    fsIvrSys ++ "/sys_goodbye.wav" ∈
      (buildInvalidCheckExtension ivr.id node (ivr.nodeEdges node.id)).transferTargets := by
  have hbind := h.bind_target node "__INVALID_MAX__"
  unfold BuilderIvr.edgeFor at hbind
  rw [mem_transferTargets]
  simp [buildInvalidCheckExtension, hbind, hmax]

/-- The transfer targets of a node are generated exactly if the edge for too many invalid
inputs names a node. -/
theorem BuilderIvr.Accepted.targetsGenerated_iff (h : ivr.Accepted) (hnode : node ∈ ivr.nodes) :
    ivr.TargetsGenerated node ↔ ∃ maxNode, ivr.namedBy node "__INVALID_MAX__" = some maxNode := by
  have hself := name_mem_context hnode
  have hnamed : ∀ onInput target, ivr.namedBy node onInput = some target →
      nodeExtName ivr.id target ∈ (buildDefaultContextXml ivr).map Extension.name := by
    intro onInput target hb
    obtain ⟨n, hn, rfl⟩ := h.namedBy_mem hb
    exact name_mem_context hn
  constructor
  · intro hall
    cases hmax : ivr.namedBy node "__INVALID_MAX__" with
    | some target => exact ⟨target, rfl⟩
    | none =>
      have hhead := head_of_mem_context (hall _ (List.mem_append_right _ (h.goodbye_target hmax)))
      simp [fsIvrSys] at hhead
  · rintro ⟨maxNode, hmax⟩ t ht
    rcases List.mem_append.1 ht with ht | ht
    · rcases h.branch_targets ht with ⟨edge, hedge, rfl⟩ | ⟨target, htimeout, rfl⟩
      · rw [h.target_eq hedge]
        cases hto : edge.toNodeId with
        | none => exact hself
        | some target =>
          obtain ⟨n, hn, rfl⟩ := h.target_mem hedge hto
          exact name_mem_context hn
      · exact hnamed _ _ htimeout
    · rcases h.invalidCheck_targets hmax ht with rfl | rfl
      · exact hnamed _ _ hmax
      · exact hself

theorem afterInvalid_eq {maxNode : Int} (hmax : ivr.namedBy node "__INVALID_MAX__" = some maxNode)
    (count : Nat) : ivr.afterInvalid node count = nodeExtName ivr.id
      (if CountMatches node.invalidMax (count + 1) then maxNode else node.id) := by
  unfold BuilderIvr.afterInvalid
  rw [hmax]
  split_ifs <;> rfl

/-- The node that the dialplan transfers to, where every sentinel edge it needs names one. -/
def BuilderIvr.reached (ivr : BuilderIvr) (pcre : Pcre) (node : BuilderNode) (maxNode : Int)
    (digits : List Dtmf) (count : Nat) : Int :=
  match ivr.firstInput pcre node digits with
  | some edge => edge.toNodeId.getD node.id
  | none =>
    match (if digits = [] then ivr.namedBy node "__TIMEOUT__" else none) with
    | some target => target
    | none => if CountMatches node.invalidMax (count + 1) then maxNode else node.id

theorem BuilderIvr.Accepted.dispatch_reached (h : ivr.Accepted) {maxNode : Int}
    (hmax : ivr.namedBy node "__INVALID_MAX__" = some maxNode) (digits : List Dtmf)
    (count : Nat) : ivr.dispatch pcre node digits count =
      some (nodeExtName ivr.id (ivr.reached pcre node maxNode digits count)) := by
  rw [h.dispatch_eq, afterInvalid_eq hmax]
  unfold BuilderIvr.reached
  cases hfirst : ivr.firstInput pcre node digits with
  | some edge =>
    dsimp only
    rw [h.target_eq (firstInput_mem hfirst)]
  | none =>
    cases (if digits = [] then ivr.namedBy node "__TIMEOUT__" else none) <;> rfl

theorem BuilderIvr.Accepted.reached_pos (h : ivr.Accepted) (hnode : node ∈ ivr.nodes)
    {maxNode : Int} (hmax : ivr.namedBy node "__INVALID_MAX__" = some maxNode)
    (digits : List Dtmf) (count : Nat) : 0 < ivr.reached pcre node maxNode digits count := by
  have hself := ivr.ids_pos node hnode
  unfold BuilderIvr.reached
  cases hfirst : ivr.firstInput pcre node digits with
  | some edge =>
    dsimp only
    cases ht : edge.toNodeId with
    | none => exact hself
    | some target =>
      obtain ⟨n, hn, rfl⟩ := h.target_mem (firstInput_mem hfirst) ht
      exact ivr.ids_pos n hn
  | none =>
    dsimp only
    by_cases hd : digits = []
    · rw [if_pos hd]
      cases hb : ivr.namedBy node "__TIMEOUT__" with
      | some target => exact h.namedBy_pos hb
      | none =>
        dsimp only
        split_ifs
        · exact h.namedBy_pos hmax
        · exact hself
    · rw [if_neg hd]
      dsimp only
      split_ifs
      · exact h.namedBy_pos hmax
      · exact hself

theorem wanted_eq_reached_iff {maxNode : Int}
    (hmax : ivr.namedBy node "__INVALID_MAX__" = some maxNode) (digits : List Dtmf)
    (count : Nat) :
    ivr.wanted node digits count = some (ivr.reached pcre node maxNode digits count) ↔
      match ivr.firstInput pcre node digits with
      | some edge => ivr.wanted node digits count = some (edge.toNodeId.getD node.id)
      | none =>
        if digits = [] then (ivr.namedBy node "__TIMEOUT__").isSome = true
        else
          match ivr.edgeFor node (digitsText digits) with
          | some edge =>
            edge.toNodeId =
              some (if CountMatches node.invalidMax (count + 1) then maxNode else node.id)
          | none =>
            maxNode = node.id ∨
              (CountMatches node.invalidMax (count + 1) ↔ node.invalidMax ≤ count + 1) := by
  unfold BuilderIvr.reached
  cases ivr.firstInput pcre node digits with
  | some edge => exact Iff.rfl
  | none =>
    dsimp only
    unfold BuilderIvr.wanted
    by_cases hd : digits = []
    · simp only [if_pos hd]
      cases ivr.namedBy node "__TIMEOUT__" <;> simp
    · simp only [if_neg hd]
      cases ivr.edgeFor node (digitsText digits) with
      | some edge => exact Iff.rfl
      | none =>
        dsimp only
        rw [hmax]
        have hover : node.invalidMax ≤ count + 1 →
            CountMatches node.invalidMax (count + 1) := countMatches_of_le
        by_cases hc : CountMatches node.invalidMax (count + 1)
        · rw [if_pos hc]
          by_cases hlt : count + 1 < node.invalidMax
          · rw [if_pos hlt]
            constructor
            · exact fun heq => Or.inl (Option.some.inj heq).symm
            · rintro (heq | hiff)
              · rw [heq]
              · exact absurd (hiff.1 hc) (by omega)
          · rw [if_neg hlt]
            exact iff_of_true rfl (Or.inr (iff_of_true hc (by omega)))
        · have hlt : count + 1 < node.invalidMax := by
            by_contra hge
            exact hc (hover (by omega))
          rw [if_neg hc, if_pos hlt]
          exact iff_of_true rfl (Or.inr (iff_of_false hc (by omega)))

/-- The generated dialplan sends an input where the graph says, and to generated extensions
only, exactly on the inputs that the patterns tell apart as the graph does. -/
theorem dialplan_dispatches_iff (pcre : Pcre) (h : ivr.Accepted) (hnode : node ∈ ivr.nodes)
    (digits : List Dtmf) (count : Nat) :
    ivr.Dispatched pcre node digits count ∧ ivr.TargetsGenerated node ↔
      ivr.RightOn pcre node digits count := by
  rw [h.targetsGenerated_iff hnode]
  have hreached : ∀ maxNode, ivr.namedBy node "__INVALID_MAX__" = some maxNode →
      (ivr.Dispatched pcre node digits count ↔
        ivr.wanted node digits count = some (ivr.reached pcre node maxNode digits count)) := by
    intro maxNode hmax
    unfold BuilderIvr.Dispatched
    rw [h.dispatch_reached hmax]
    constructor
    · rintro ⟨target, hw, hname⟩
      have hpos := wanted_pos hnode h hw
      have hpos' := @BuilderIvr.Accepted.reached_pos ivr node pcre h hnode maxNode hmax digits count
      rw [nodeExtName_inj hpos' hpos (Option.some.inj hname), hw]
    · exact fun hw => ⟨_, hw, rfl⟩
  constructor
  · rintro ⟨hdispatched, maxNode, hmax⟩
    exact ⟨maxNode, hmax, (wanted_eq_reached_iff hmax digits count).1
      ((hreached maxNode hmax).1 hdispatched)⟩
  · rintro ⟨maxNode, hmax, hright⟩
    exact ⟨(hreached maxNode hmax).2 ((wanted_eq_reached_iff hmax digits count).2 hright),
      maxNode, hmax⟩

/-- Every edge of the node names a node, and the inputs are letters and digits. -/
structure BuilderIvr.Plain (ivr : BuilderIvr) (node : BuilderNode) : Prop where
  named : ∀ edge ∈ ivr.nodeEdges node.id, edge.toNodeId.isSome = true
  inputs : ∀ edge ∈ ivr.nodeEdges node.id, sentinel edge.onInput = false →
    edge.onInput ≠ "" ∧ ∀ c ∈ edge.onInput.toList, c.isAlphanum = true
  timeout : (ivr.edgeFor node "__TIMEOUT__").isSome = true
  invalidMax : (ivr.edgeFor node "__INVALID_MAX__").isSome = true
  max : node.invalidMax ≤ 9

theorem BuilderIvr.Plain.namedBy (h : ivr.Plain node) {onInput : String}
    (hfor : (ivr.edgeFor node onInput).isSome = true) :
    ∃ target, ivr.namedBy node onInput = some target := by
  obtain ⟨edge, hedge⟩ := Option.isSome_iff_exists.1 hfor
  obtain ⟨target, ht⟩ := Option.isSome_iff_exists.1
    (h.named edge (List.mem_of_find?_eq_some hedge))
  exact ⟨target, by rw [BuilderIvr.namedBy, hedge, Option.bind_some, ht]⟩

theorem map_blank {s : List Char} (hs : ∀ c ∈ s, c.isAlphanum = true) : s.map blank = s := by
  rw [List.map_congr_left, List.map_id]
  intro c hc
  have hne : ¬ (c = '\t' ∨ c = '\n' ∨ c = '\r') := by
    rintro (rfl | rfl | rfl) <;> exact absurd (hs _ hc) (by decide)
  exact if_neg hne

theorem BuilderIvr.Plain.edgeMatches_iff (h : ivr.Plain node) {edge : BuilderEdge}
    (hedge : edge ∈ ivr.nodeEdges node.id) (hinput : sentinel edge.onInput = false)
    (digits : List Dtmf) :
    BuilderIvr.edgeMatches pcre digits edge = true ↔ edge.onInput = digitsText digits := by
  have halnum := (h.inputs edge hedge hinput).2
  unfold BuilderIvr.edgeMatches
  rw [map_blank halnum, pcre.plain _ _ halnum (newline_not_mem_digits digits)]
  constructor
  · intro heq
    rw [digitsText, heq, String.ofList_toList]
  · intro heq
    rw [heq, digitsText, String.toList_ofList]

theorem sentinel_digitsText (digits : List Dtmf) : sentinel (digitsText digits) = false := by
  have hhead : ∀ s : String, s.toList.head? = some '_' → digitsText digits ≠ s := by
    rintro s hs rfl
    rw [digitsText, String.toList_ofList] at hs
    have hmem := List.mem_of_mem_head? hs
    obtain ⟨k, -, hk⟩ := List.mem_map.1 hmem
    cases k with
    | digit n =>
      have hdigit := isDigit_digitChar n.isLt
      rw [show Nat.digitChar n = '_' from hk] at hdigit
      exact absurd hdigit (by decide)
    | _ => exact absurd hk (by decide)
  have htimeout := hhead "__TIMEOUT__" rfl
  have hmax := hhead "__INVALID_MAX__" rfl
  simp [sentinel, htimeout, hmax]

theorem edgeFor_eq_some {edge : BuilderEdge} {onInput : String}
    (hedge : edge ∈ ivr.nodeEdges node.id) (hinput : edge.onInput = onInput) :
    ivr.edgeFor node onInput = some edge := by
  cases hother : ivr.edgeFor node onInput with
  | none =>
    have hnone := List.find?_eq_none.1 hother edge hedge
    exact absurd hinput (by simpa using hnone)
  | some other =>
    have hother' : other.onInput = onInput := by simpa using List.find?_some hother
    have hsame := List.inj_on_of_nodup_map (inputs_nodup_nodeEdges ivr node.id)
      (List.mem_of_find?_eq_some hother) hedge (hother'.trans hinput.symm)
    rw [hsame]

theorem mem_inputEdges {edge : BuilderEdge} :
    edge ∈ (sortEdges (ivr.nodeEdges node.id)).filter (fun e => ¬ sentinel e.onInput) ↔
      edge ∈ ivr.nodeEdges node.id ∧ sentinel edge.onInput = false := by
  rw [List.mem_filter, (sortEdges_perm _).mem_iff]
  simp

/-- On a plain menu the first matching input edge is the edge for the input. -/
theorem BuilderIvr.Plain.firstInput_eq (h : ivr.Plain node) (pcre : Pcre) (digits : List Dtmf) :
    ivr.firstInput pcre node digits = ivr.edgeFor node (digitsText digits) := by
  cases hfirst : ivr.firstInput pcre node digits with
  | some edge =>
    obtain ⟨hedge, hinput⟩ := mem_inputEdges.1 (List.mem_of_find?_eq_some hfirst)
    have htext := (h.edgeMatches_iff hedge hinput digits).1 (List.find?_some hfirst)
    exact (edgeFor_eq_some hedge htext).symm
  | none =>
    cases hfor : ivr.edgeFor node (digitsText digits) with
    | none => rfl
    | some edge =>
      -- the edge for the input would have matched
      have hedge := List.mem_of_find?_eq_some hfor
      have htext : edge.onInput = digitsText digits := by simpa using List.find?_some hfor
      have hinput : sentinel edge.onInput = false := by
        rw [htext]
        exact sentinel_digitsText digits
      have hnone := List.find?_eq_none.1 hfirst edge (mem_inputEdges.2 ⟨hedge, hinput⟩)
      exact absurd ((h.edgeMatches_iff hedge hinput digits).2 htext) hnone

/-- A menu of plain inputs with a count up to nine is dispatched as its graph says. -/
theorem BuilderIvr.Plain.rightOn (h : ivr.Plain node) (pcre : Pcre) (digits : List Dtmf)
    (count : Nat) : ivr.RightOn pcre node digits count := by
  obtain ⟨maxNode, hmax⟩ := h.namedBy h.invalidMax
  obtain ⟨timeoutNode, htimeout⟩ := h.namedBy h.timeout
  refine ⟨maxNode, hmax, ?_⟩
  rw [h.firstInput_eq]
  cases hfor : ivr.edgeFor node (digitsText digits) with
  | some edge =>
    dsimp only
    have hedge := List.mem_of_find?_eq_some hfor
    have htext : edge.onInput = digitsText digits := by simpa using List.find?_some hfor
    have hinput : sentinel edge.onInput = false := by
      rw [htext]
      exact sentinel_digitsText digits
    have hne : digits ≠ [] := by
      intro hd
      rw [digitsText_eq_empty.2 hd] at htext
      exact (h.inputs edge hedge hinput).1 htext
    obtain ⟨target, ht⟩ := Option.isSome_iff_exists.1 (h.named edge hedge)
    have hwanted : ivr.wanted node digits count = edge.toNodeId := by
      unfold BuilderIvr.wanted
      rw [if_neg hne, hfor]
    rw [hwanted, ht]
    rfl
  | none =>
    dsimp only
    by_cases hd : digits = []
    · rw [if_pos hd, htimeout]
      rfl
    · rw [if_neg hd]
      exact Or.inr (countMatches_iff h.max)

/-- The class in the pattern of a count. -/
def countBody (e : List Char) : Option (List Char) :=
  let r := e.drop 3
  let body := r.take (r.length - "]|[1-9][0-9]+)$".toList.length)
  if e = "^([".toList ++ body ++ "]|[1-9][0-9]+)$".toList then some body else none

def numberOrClass (body : List Char) : List Char → Bool
  | [] => false
  | [c] => inClass body c
  | c :: r => '1' ≤ c ∧ c ≤ '9' ∧ r.all Char.isDigit

/-- Letters and digits stand for themselves and a dot for any character. -/
def literal : List Char → List Char → Bool
  | [], s => s.isEmpty
  | p :: ps, c :: s => (p = '.' ∧ c ≠ '\n' ∨ p = c) && literal ps s
  | _ :: _, [] => false

/-- The expressions of the dialplan whose input edges hold letters, digits and dots. -/
def dotTest (e s : List Char) : Bool :=
  if e = "^.*$".toList then true
  else
    match countBody e with
    | some body => numberOrClass body s
    | none => e.head? = some '^' ∧ e.getLast? = some '$' ∧ literal e.tail.dropLast s

theorem literal_iff {p : List Char} (hp : ∀ c ∈ p, c.isAlphanum = true) (s : List Char) :
    literal p s = true ↔ s = p := by
  induction p generalizing s with
  | nil => simp [literal]
  | cons x p ih =>
    have hdot : x ≠ '.' := by
      rintro rfl
      exact absurd (hp '.' List.mem_cons_self) (by decide)
    cases s with
    | nil => simp [literal]
    | cons c s =>
      simp only [literal, hdot, Bool.and_eq_true, ih fun y hy => hp y (List.mem_cons_of_mem _ hy)]
      simp [eq_comm]

theorem countBody_plain {p : List Char} (hp : ∀ c ∈ p, c.isAlphanum = true) :
    countBody ('^' :: p ++ ['$']) = none := by
  unfold countBody
  apply if_neg
  intro h
  cases p with
  | nil => simp at h
  | cons x p =>
    have hx : x = '(' := (List.cons.inj (List.cons.inj h).2).1
    subst hx
    exact absurd (hp '(' List.mem_cons_self) (by decide)

theorem countBody_eq (body : List Char) :
    countBody ("^([".toList ++ body ++ "]|[1-9][0-9]+)$".toList) = some body := by
  have hdrop : ("^([".toList ++ body ++ "]|[1-9][0-9]+)$".toList).drop 3 =
      body ++ "]|[1-9][0-9]+)$".toList := rfl
  unfold countBody
  simp only [hdrop, List.length_append, Nat.add_sub_cancel, List.take_left, if_true]

theorem numberOrClass_iff (body s : List Char) :
    numberOrClass body s = true ↔ (∃ c, s = [c] ∧ inClass body c = true) ∨
      ∃ c r, s = c :: r ∧ r ≠ [] ∧ '1' ≤ c ∧ c ≤ '9' ∧ ∀ x ∈ r, x.isDigit = true := by
  cases s with
  | nil => simp [numberOrClass]
  | cons c s =>
    cases s with
    | nil => simp [numberOrClass]
    | cons x s => simp [numberOrClass]

def dotPcre : Pcre where
  test := dotTest
  plain p s hp _ := by
    have hany : '^' :: p ++ ['$'] ≠ "^.*$".toList := by
      intro h
      cases p with
      | nil => exact absurd h (by decide)
      | cons x p =>
        have hx : x = '.' := (List.cons.inj (List.cons.inj h).2).1
        subst hx
        exact absurd (hp '.' List.mem_cons_self) (by decide)
    have hlast : ('^' :: p ++ ['$']).getLast? = some '$' := List.getLast?_concat
    have hinner : ('^' :: p ++ ['$']).tail.dropLast = p := by simp
    unfold dotTest
    rw [if_neg hany, countBody_plain hp]
    simp only [hlast, hinner, literal_iff hp s]
    simp
  any s _ := by
    unfold dotTest
    rw [if_pos rfl]
  atLeast digits s _ _ _ := by
    have hany : "^([".toList ++ (digits ++ ['-', '9']) ++ "]|[1-9][0-9]+)$".toList ≠ "^.*$".toList := by
      intro h
      exact absurd (List.cons.inj (List.cons.inj h).2).1 (by decide)
    unfold dotTest
    rw [if_neg hany, countBody_eq]
    exact numberOrClass_iff (digits ++ ['-', '9']) s

def menuNode : BuilderNode := ⟨1, .collect, 1, 1, "none", 5000, 3, none⟩

def hangupNode (id : Int) : BuilderNode := ⟨id, .terminalHangup, 1, 1, "none", 5000, 3, none⟩

/-- An input edge for any key before the one for 5, and no node for too many invalid
inputs. -/
def dotMenu : BuilderIvr where
  id := 1
  entryNodeId := some 1
  nodes := [menuNode, hangupNode 2, hangupNode 3, hangupNode 4]
  edges := [⟨1, ".", some 2, 0⟩, ⟨1, "5", some 3, 1⟩, ⟨1, "__TIMEOUT__", some 4, 2⟩,
    ⟨1, "__INVALID_MAX__", none, 3⟩]
  ids_pos := by decide
  inputs_nodup := by decide

/-- The same with the edges in the other order and a node for too many invalid inputs. -/
def keyMenu : BuilderIvr where
  id := 1
  entryNodeId := some 1
  nodes := [menuNode, hangupNode 2, hangupNode 3, hangupNode 4]
  edges := [⟨1, ".", some 2, 1⟩, ⟨1, "5", some 3, 0⟩, ⟨1, "__TIMEOUT__", some 4, 2⟩,
    ⟨1, "__INVALID_MAX__", some 4, 3⟩]
  ids_pos := by decide
  inputs_nodup := by decide

theorem dotMenu_accepted : dotMenu.Accepted := ⟨1, by decide +kernel⟩

theorem dotMenu_misdispatched : dotMenu.Accepted ∧
    ¬ dotMenu.Dispatched dotPcre menuNode [.digit ⟨5, by decide⟩] 0 ∧
      ¬ dotMenu.TargetsGenerated menuNode := by
  refine ⟨dotMenu_accepted, ?_, ?_⟩
  · rintro ⟨target, hw, hd⟩
    have hthree : dotMenu.wanted menuNode [.digit ⟨5, by decide⟩] 0 = some 3 := by decide +kernel
    have htwo : dotMenu.dispatch dotPcre menuNode [.digit ⟨5, by decide⟩] 0 =
      some (nodeExtName 1 2) := by decide +kernel
    obtain rfl : 3 = target := Option.some.inj (hthree.symm.trans hw)
    exact absurd (hd.symm.trans htwo) (by decide +kernel)
  · have hmem : menuNode ∈ dotMenu.nodes := List.mem_cons_self
    rw [dotMenu_accepted.targetsGenerated_iff hmem]
    rintro ⟨maxNode, hmax⟩
    have hnone : dotMenu.namedBy menuNode "__INVALID_MAX__" = none := by decide +kernel
    rw [hnone] at hmax
    cases hmax

theorem keyMenu_dispatched :
    keyMenu.Dispatched dotPcre menuNode [.digit ⟨5, by decide⟩] 0 ∧
      keyMenu.TargetsGenerated menuNode := by
  have haccepted : keyMenu.Accepted := ⟨1, by decide +kernel⟩
  have hfirst : keyMenu.firstInput dotPcre menuNode [.digit ⟨5, by decide⟩] =
      some ⟨1, "5", some 3, 0⟩ := by decide +kernel
  refine (dialplan_dispatches_iff dotPcre haccepted List.mem_cons_self _ 0).2
    ⟨4, by decide +kernel, ?_⟩
  rw [hfirst]
  decide +kernel

end Ivr

end Vici2
