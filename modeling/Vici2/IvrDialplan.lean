import Vici2.IvrValidator
import Mathlib.Data.List.Sort

/-! The FreeSWITCH dialplan of an IVR: the extensions that are generated for its nodes, and
what the conditions of a branch and of an invalid check make of an input. -/

namespace Vici2

namespace Ivr

open DepthFirst

structure BuilderNode where
  id : Int
  nodeType : IvrNodeType
  collectMin : Int
  collectMax : Int
  collectTerminators : String
  timeoutMs : Int
  invalidMax : Nat
  actionTarget : Option String
  deriving DecidableEq, Repr

structure BuilderEdge where
  fromNodeId : Int
  onInput : String
  toNodeId : Option Int
  sortOrder : Int
  deriving DecidableEq, Repr

/-- An IVR as it comes from the database, where ids are positive and a node has one edge for
an input. -/
structure BuilderIvr where
  id : Int
  entryNodeId : Option Int
  nodes : List BuilderNode
  edges : List BuilderEdge
  ids_pos : ∀ node ∈ nodes, 0 < node.id
  inputs_nodup : (edges.map fun e => (e.fromNodeId, e.onInput)).Nodup

def BuilderIvr.graph (ivr : BuilderIvr) : IvrGraph where
  entryNodeId := ivr.entryNodeId
  nodes := ivr.nodes.map fun n => ⟨n.id, n.nodeType⟩
  edges := ivr.edges.map fun e => ⟨e.fromNodeId, e.onInput, e.toNodeId⟩

def fsIvrSys : String := "/var/lib/freeswitch/sounds/ivr/sys"

def escChar (c : Char) : List Char :=
  if c = '&' then "&amp;".toList
  else if c = '<' then "&lt;".toList
  else if c = '>' then "&gt;".toList
  else if c = '"' then "&quot;".toList
  else [c]

def escXml (s : List Char) : List Char := s.flatMap escChar

def nodeExtName (ivrId nodeId : Int) : String :=
  "ivr_" ++ toString ivrId ++ "_n" ++ toString nodeId

inductive Field
  | destinationNumber
  | channelVar (name : String)
  deriving DecidableEq, Repr

/-- An application and its data; that of `transfer` and `executeExtension` is the extension
in the XML default context. -/
inductive Action
  | set (data : List Char)
  | transfer (extension : String)
  | executeExtension (extension : String)
  | playback (data : List Char)
  | read (data : String)
  | playAndGetDigits (data : String)
  | bridge (data : List Char)
  | hangup (cause : String)
  | api (data : String)
  deriving DecidableEq, Repr

/-- A condition that breaks on true, its expression as it stands in the file. -/
structure Condition where
  field : Field
  expression : List Char
  actions : List Action
  deriving DecidableEq, Repr

structure Extension where
  name : String
  conditions : List Condition
  deriving DecidableEq, Repr

def variableText (name : String) : String := "$\x7b" ++ name ++ "\x7d"

def digitVar (node : BuilderNode) : String := "ivr_digit_" ++ toString node.id

def enterActions (node : BuilderNode) : List Action :=
  [.set ("vici2_ivr_node_id=" ++ toString node.id).toList,
    .set ("vici2_ivr_path=" ++ variableText "vici2_ivr_path" ++ ":" ++ toString node.id).toList]

def buildCollectExtension (ivrId : Int) (node : BuilderNode) : Extension :=
  let extName := nodeExtName ivrId node.id
  { name := extName
    conditions := [
      { field := .destinationNumber
        expression := ("^" ++ extName ++ "$").toList
        actions := enterActions node ++
          [.read (toString node.collectMin ++ " " ++ toString node.collectMax ++ " '' " ++
              digitVar node ++ " " ++ toString node.timeoutMs ++ " " ++ node.collectTerminators),
            .executeExtension (extName ++ "_branch")] }] }

def sentinel (onInput : String) : Bool := onInput = "__TIMEOUT__" ∨ onInput = "__INVALID_MAX__"

/-- `[...edges].sort` by `sortOrder` -/
def sortEdges (edges : List BuilderEdge) : List BuilderEdge :=
  edges.insertionSort fun a b => a.sortOrder ≤ b.sortOrder

/-- The node that an edge names: `0n` is falsy. -/
def BuilderEdge.target (edge : BuilderEdge) : Option Int := edge.toNodeId.filter (· ≠ 0)

def edgeExpression (onInput : String) : List Char := '^' :: escXml onInput.toList ++ ['$']

def edgeCondition (ivrId : Int) (node : BuilderNode) (edge : BuilderEdge) : Condition where
  field := .channelVar (digitVar node)
  expression := edgeExpression edge.onInput
  actions :=
    .set (("vici2_ivr_digits=" ++ variableText "vici2_ivr_digits" ++ ":").toList ++
        escXml edge.onInput.toList) ::
      (if node.nodeType = .langSelect then
        [.set ("vici2_ivr_lang=" ++ if edge.onInput = "1" then "en" else "es").toList] else []) ++
      [.transfer (nodeExtName ivrId (edge.target.getD node.id))]

def timeoutConditions (ivrId : Int) (node : BuilderNode) (sorted : List BuilderEdge) :
    List Condition :=
  match (sorted.find? (·.onInput = "__TIMEOUT__")).bind BuilderEdge.target with
  | some target =>
    [{ field := .channelVar (digitVar node)
       expression := "^$".toList
       actions := [.transfer (nodeExtName ivrId target)] }]
  | none => []

/-- Invalid input: the counter is incremented and checked. -/
def invalidCondition (ivrId : Int) (node : BuilderNode) : Condition where
  field := .channelVar (digitVar node)
  expression := "^.*$".toList
  actions :=
    [.set ("ivr_invalid_count=" ++ variableText ("expr(" ++ variableText "ivr_invalid_count" ++
        "+1)")).toList,
      .executeExtension (nodeExtName ivrId node.id ++ "_invalid_check")]

def buildBranchExtension (ivrId : Int) (node : BuilderNode) (edges : List BuilderEdge) :
    Extension :=
  let sorted := sortEdges edges
  { name := nodeExtName ivrId node.id ++ "_branch"
    conditions := (sorted.filter fun e => ¬ sentinel e.onInput).map (edgeCondition ivrId node) ++
      timeoutConditions ivrId node sorted ++ [invalidCondition ivrId node] }

/-- The pattern for `invalidMax` or higher. -/
def countExpression (m : Nat) : List Char :=
  "^([".toList ++ Nat.toDigits 10 m ++ "-9]|[1-9][0-9]+)$".toList

def buildInvalidCheckExtension (ivrId : Int) (node : BuilderNode) (edges : List BuilderEdge) :
    Extension :=
  let extName := nodeExtName ivrId node.id
  let maxTarget :=
    match (edges.find? (·.onInput = "__INVALID_MAX__")).bind BuilderEdge.target with
    | some target => nodeExtName ivrId target
    | none => fsIvrSys ++ "/sys_goodbye.wav"
  { name := extName ++ "_invalid_check"
    conditions := [
      { field := .channelVar "ivr_invalid_count"
        expression := countExpression node.invalidMax
        actions := [.set "ivr_invalid_count=0".toList, .transfer maxTarget] },
      { field := .channelVar "ivr_invalid_count"
        expression := "^.*$".toList
        actions := [.transfer extName] }] }

def terminalActions (node : BuilderNode) : List Action :=
  let target := node.actionTarget.getD ""
  match node.nodeType with
  | .terminalIngroup =>
    [.set ("vici2_ivr_exit_node=" ++ toString node.id).toList,
      .set "vici2_ivr_exit_action=route_to_ingroup".toList,
      .set ("vici2_ivr_exit_target=".toList ++ escXml target.toList),
      .transfer ("ingroup_" ++ String.ofList (escXml target.toList))]
  | .terminalHangup =>
    [.playback (if target = "" then (fsIvrSys ++ "/sys_goodbye.wav").toList
        else escXml target.toList),
      .hangup "NORMAL_CLEARING"]
  | .terminalVoicemail => [.transfer ("voicemail_" ++ String.ofList (escXml target.toList))]
  | .terminalTransfer =>
    [.set "hangup_after_bridge=true".toList,
      .bridge (("sofia/gateway/" ++ variableText "default_gateway" ++ "/").toList ++
        escXml target.toList)]
  | .terminalCallback =>
    [.playAndGetDigits ("1 1 1 8000 # " ++ fsIvrSys ++ "/sys_callback_offer.wav " ++ fsIvrSys ++
        "/sys_invalid.wav VICI2_CB_OPT \\d 1000 ^1$"),
      .executeExtension ("ivr_callback_dispatch_" ++ toString node.id)]
  | _ => [.hangup "NORMAL_CLEARING"]

def buildTerminalExtension (ivrId : Int) (node : BuilderNode) : Extension :=
  let extName := nodeExtName ivrId node.id
  { name := extName
    conditions := [
      { field := .destinationNumber
        expression := ("^" ++ extName ++ "$").toList
        actions := enterActions node ++ terminalActions node }] }

def buildCallbackDispatchExtension (node : BuilderNode) : Extension :=
  let ingroup := escXml (node.actionTarget.getD "").toList
  { name := "ivr_callback_dispatch_" ++ toString node.id
    conditions := [
      { field := .channelVar "VICI2_CB_OPT"
        expression := "^1$".toList
        actions :=
          [.set ("vici2_callback_ingroup=".toList ++ ingroup),
            .api ("bgapi uuid_broadcast " ++ variableText "uuid" ++
              " execute::curl http://api:3000/internal/ivr/callback_accept/" ++
              variableText "uuid"),
            .playback (fsIvrSys ++ "/sys_callback_confirmed.wav").toList,
            .hangup "NORMAL_CLEARING"] },
      { field := .channelVar "VICI2_CB_OPT"
        expression := "^.*$".toList
        actions := [.transfer ("ingroup_" ++ String.ofList ingroup)] }] }

/-- The edges of a node, in the order of the list. -/
def BuilderIvr.nodeEdges (ivr : BuilderIvr) (id : Int) : List BuilderEdge :=
  ivr.edges.filter (·.fromNodeId = id)

def BuilderIvr.nodeExtensions (ivr : BuilderIvr) (node : BuilderNode) : List Extension :=
  if node.nodeType.terminal then
    buildTerminalExtension ivr.id node ::
      if node.nodeType = .terminalCallback then [buildCallbackDispatchExtension node] else []
  else
    [buildCollectExtension ivr.id node, buildBranchExtension ivr.id node (ivr.nodeEdges node.id),
      buildInvalidCheckExtension ivr.id node (ivr.nodeEdges node.id)]

def buildDefaultContextXml (ivr : BuilderIvr) : List Extension :=
  ivr.nodes.flatMap ivr.nodeExtensions

/-- An attribute as an XML reader returns it: entities are resolved and white space is a
blank. -/
def readAttr : List Char → List Char
  | [] => []
  | '&' :: 'a' :: 'm' :: 'p' :: ';' :: r => '&' :: readAttr r
  | '&' :: 'l' :: 't' :: ';' :: r => '<' :: readAttr r
  | '&' :: 'g' :: 't' :: ';' :: r => '>' :: readAttr r
  | '&' :: 'q' :: 'u' :: 'o' :: 't' :: ';' :: r => '"' :: readAttr r
  | c :: r => (if c = '\t' ∨ c = '\n' ∨ c = '\r' then ' ' else c) :: readAttr r

/-- Members of a character class: single characters and ranges. -/
def inClass : List Char → Char → Bool
  | a :: '-' :: b :: r, c => (a ≤ c ∧ c ≤ b) || inClass r c
  | a :: r, c => a = c || inClass r c
  | [], _ => false

/-- FreeSWITCH's regular expressions, as far as their meaning for the generated expressions
is fixed: plain texts, any text, and a class of digits that ends in a range up to 9, beside the
numbers of two digits and more. -/
structure Pcre where
  test : List Char → List Char → Bool
  plain : ∀ p s, (∀ c ∈ p, c.isAlphanum = true) → '\n' ∉ s →
    (test ('^' :: p ++ ['$']) s = true ↔ s = p)
  any : ∀ s, '\n' ∉ s → test "^.*$".toList s = true
  atLeast : ∀ digits s, digits ≠ [] → (∀ c ∈ digits, c.isDigit = true) → '\n' ∉ s →
    (test ("^([".toList ++ (digits ++ ['-', '9']) ++ "]|[1-9][0-9]+)$".toList) s = true ↔
      (∃ c, s = [c] ∧ inClass (digits ++ ['-', '9']) c = true) ∨
        ∃ c r, s = c :: r ∧ r ≠ [] ∧ '1' ≤ c ∧ c ≤ '9' ∧ ∀ x ∈ r, x.isDigit = true)

/-- The actions of the first condition that matches, which breaks on true. -/
def Extension.firstMatch (pcre : Pcre) (channel : Field → List Char) (ext : Extension) :
    Option (List Action) :=
  (ext.conditions.find? fun c => pcre.test (readAttr c.expression) (channel c.field)).map
    Condition.actions

def transferTarget (actions : List Action) : Option String :=
  actions.findSome? fun
    | .transfer extension => some extension
    | _ => none

inductive Dtmf
  | digit (n : Fin 10)
  | star
  | pound
  | a
  | b
  | c
  | d
  deriving DecidableEq, Repr

def Dtmf.char : Dtmf → Char
  | .digit n => Nat.digitChar n
  | .star => '*'
  | .pound => '#'
  | .a => 'A'
  | .b => 'B'
  | .c => 'C'
  | .d => 'D'

def branchChannel (node : BuilderNode) (digits : List Dtmf) (count : Nat) : Field → List Char
  | .channelVar name =>
    if name = digitVar node then digits.map Dtmf.char
    else if name = "ivr_invalid_count" then Nat.toDigits 10 count
    else []
  | .destinationNumber => []

/-- Where a node transfers the call when it has collected `digits` after `count` invalid
inputs: its branch decides, and its invalid check if the branch executes it. -/
def BuilderIvr.dispatch (ivr : BuilderIvr) (pcre : Pcre) (node : BuilderNode)
    (digits : List Dtmf) (count : Nat) : Option String :=
  let edges := ivr.nodeEdges node.id
  match (buildBranchExtension ivr.id node edges).firstMatch pcre
      (branchChannel node digits count) with
  | none => none
  | some actions =>
    match transferTarget actions with
    | some extension => some extension
    | none =>
      ((buildInvalidCheckExtension ivr.id node edges).firstMatch pcre
        (branchChannel node digits (count + 1))).bind transferTarget

def Extension.transferTargets (ext : Extension) : List String :=
  (ext.conditions.flatMap Condition.actions).filterMap fun
    | .transfer extension => some extension
    | _ => none

def blank (c : Char) : Char := if c = '\t' ∨ c = '\n' ∨ c = '\r' then ' ' else c

theorem readAttr_escChar (c : Char) (r : List Char) :
    readAttr (escChar c ++ r) = blank c :: readAttr r := by
  unfold escChar
  split_ifs with hamp hlt hgt hquot
  · subst hamp
    rfl
  · subst hlt
    rfl
  · subst hgt
    rfl
  · subst hquot
    rfl
  · rw [List.singleton_append, readAttr]
    · rfl
    all_goals
      intros
      simp_all

theorem readAttr_escXml (s r : List Char) :
    readAttr (escXml s ++ r) = s.map blank ++ readAttr r := by
  induction s with
  | nil => rfl
  | cons c s ih =>
    have hcons : escXml (c :: s) ++ r = escChar c ++ (escXml s ++ r) := by
      simp [escXml]
    rw [hcons, readAttr_escChar, ih]
    rfl

theorem readAttr_plain {s : List Char} (h : ∀ c ∈ s, c ≠ '&' ∧ blank c = c) : readAttr s = s := by
  induction s with
  | nil => rfl
  | cons c s ih =>
    obtain ⟨hamp, hblank⟩ := h c List.mem_cons_self
    rw [readAttr]
    · rw [ih fun x hx => h x (List.mem_cons_of_mem _ hx)]
      exact congrArg (· :: s) hblank
    all_goals
      intros
      simp_all

theorem readAttr_edgeExpression (onInput : String) :
    readAttr (edgeExpression onInput) = '^' :: onInput.toList.map blank ++ ['$'] := by
  have hhat : edgeExpression onInput = escChar '^' ++ (escXml onInput.toList ++ ['$']) := rfl
  rw [hhat, readAttr_escChar, readAttr_escXml]
  rfl

theorem inClass_range (a c : Char) : inClass [a, '-', '9'] c = decide (a ≤ c ∧ c ≤ '9') := by
  simp [inClass]

theorem inClass_digits {l : List Char} (hl : ∀ x ∈ l, x.isDigit = true) {a : Char}
    (ha : a.isDigit = true) (c : Char) :
    inClass (l ++ [a, '-', '9']) c = (decide (c ∈ l) || decide (a ≤ c ∧ c ≤ '9')) := by
  induction l with
  | nil => simp [inClass_range]
  | cons x l ih =>
    have hih := ih fun y hy => hl y (List.mem_cons_of_mem _ hy)
    obtain ⟨y, rest, hy, hdigit⟩ : ∃ y rest, l ++ [a, '-', '9'] = y :: rest ∧ y ≠ '-' := by
      cases l with
      | nil => exact ⟨a, ['-', '9'], rfl, by rintro rfl; exact absurd ha (by decide)⟩
      | cons y l =>
        refine ⟨y, l ++ [a, '-', '9'], rfl, ?_⟩
        rintro rfl
        exact absurd (hl '-' (by simp)) (by decide)
    have hcons : inClass (x :: (l ++ [a, '-', '9'])) c =
        (decide (x = c) || inClass (l ++ [a, '-', '9']) c) := by
      rw [hy, inClass]
      intro b r hbr
      exact absurd (List.cons.inj hbr).1 hdigit
    rw [List.cons_append, hcons, hih]
    simp [eq_comm, Bool.or_assoc]

theorem isDigit_digitChar {n : Nat} (hn : n < 10) : (Nat.digitChar n).isDigit = true := by
  have hall : ∀ n < 10, (Nat.digitChar n).isDigit = true := by decide
  exact hall n hn

theorem digitChar_le_iff {a n : Nat} (ha : a < 10) (hn : n < 10) :
    Nat.digitChar a ≤ Nat.digitChar n ↔ a ≤ n := by
  have hall : ∀ a < 10, ∀ n < 10, (Nat.digitChar a ≤ Nat.digitChar n ↔ a ≤ n) := by decide
  exact hall a ha n hn

theorem digitChar_le_nine {n : Nat} (hn : n < 10) : Nat.digitChar n ≤ '9' := by
  have hall : ∀ n < 10, Nat.digitChar n ≤ '9' := by decide
  exact hall n hn

/-- The digits of a number before its last. -/
def leading (m : Nat) : List Char := if m < 10 then [] else Nat.toDigits 10 (m / 10)

theorem toDigits_eq_leading (m : Nat) :
    Nat.toDigits 10 m = leading m ++ [Nat.digitChar (m % 10)] := by
  unfold leading
  split_ifs with hm
  · rw [Nat.toDigits_of_lt_base hm, Nat.mod_eq_of_lt hm]
    rfl
  · rw [Nat.toDigits_of_base_le (by omega) (by omega)]

theorem isDigit_of_mem_leading {m : Nat} {c : Char} (hc : c ∈ leading m) : c.isDigit = true := by
  have hmem : c ∈ Nat.toDigits 10 m := by
    rw [toDigits_eq_leading]
    exact List.mem_append_left _ hc
  exact Nat.isDigit_of_mem_toDigits (by omega) (by omega) hmem

/-- A number of two digits or more does not begin with a zero. -/
theorem leading_ne_nil {n : Nat} (hn : 10 ≤ n) :
    ∃ c r, leading n = c :: r ∧ '1' ≤ c ∧ c ≤ '9' := by
  induction n using Nat.strong_induction_on with
  | _ n ih =>
    have hlead : leading n = Nat.toDigits 10 (n / 10) := if_neg (by omega)
    rw [hlead, toDigits_eq_leading]
    by_cases hsmall : n / 10 < 10
    · have hnil : leading (n / 10) = [] := if_pos hsmall
      have hpos : 1 ≤ n / 10 % 10 := by omega
      refine ⟨Nat.digitChar (n / 10 % 10), [], by rw [hnil]; rfl, ?_, ?_⟩
      · exact (digitChar_le_iff (by omega) (by omega)).2 hpos
      · exact digitChar_le_nine (by omega)
    · obtain ⟨c, r, hc, hlow, hhigh⟩ := ih (n / 10) (by omega) (by omega)
      exact ⟨c, r ++ [Nat.digitChar (n / 10 % 10)], by rw [hc]; rfl, hlow, hhigh⟩

/-- What the pattern for `m` or higher matches. -/
def CountMatches (m n : Nat) : Prop :=
  10 ≤ n ∨ m % 10 ≤ n ∨ Nat.digitChar n ∈ leading m

instance (m n : Nat) : Decidable (CountMatches m n) := by
  unfold CountMatches
  infer_instance

theorem countMatches_of_le {m n : Nat} (h : m ≤ n) : CountMatches m n := by
  right; left
  omega

/-- Up to nine the class of the pattern is the range from `m`. -/
theorem countMatches_iff {m n : Nat} (hm : m ≤ 9) : CountMatches m n ↔ m ≤ n := by
  constructor
  · rintro (hn | hn | hn)
    · omega
    · omega
    · rw [leading, if_pos (by omega)] at hn
      exact absurd hn List.not_mem_nil
  · exact countMatches_of_le

theorem isDigit_of_mem_toDigits {n : Nat} {c : Char} (hc : c ∈ Nat.toDigits 10 n) :
    c.isDigit = true := Nat.isDigit_of_mem_toDigits (by omega) (by omega) hc

theorem ne_newline_of_isDigit {c : Char} (hc : c.isDigit = true) : c ≠ '\n' := by
  rintro rfl
  exact absurd hc (by decide)

theorem countExpression_eq (m : Nat) :
    countExpression m = "^([".toList ++ (Nat.toDigits 10 m ++ ['-', '9']) ++
      "]|[1-9][0-9]+)$".toList := by
  have hsplit : "-9]|[1-9][0-9]+)$".toList = ['-', '9'] ++ "]|[1-9][0-9]+)$".toList := rfl
  rw [countExpression, hsplit]
  simp only [List.append_assoc]

theorem test_countExpression (pcre : Pcre) (m n : Nat) :
    pcre.test (countExpression m) (Nat.toDigits 10 n) = true ↔ CountMatches m n := by
  have hline : '\n' ∉ Nat.toDigits 10 n :=
    fun h => ne_newline_of_isDigit (isDigit_of_mem_toDigits h) rfl
  have hclass : ∀ c, inClass (Nat.toDigits 10 m ++ ['-', '9']) c = true ↔
      c ∈ leading m ∨ (Nat.digitChar (m % 10) ≤ c ∧ c ≤ '9') := by
    intro c
    rw [toDigits_eq_leading, List.append_assoc, List.singleton_append,
      inClass_digits (fun x hx => isDigit_of_mem_leading hx)
        (isDigit_digitChar (Nat.mod_lt m (by omega)))]
    simp
  rw [countExpression_eq, pcre.atLeast _ _ Nat.toDigits_ne_nil (fun _ hc => isDigit_of_mem_toDigits hc) hline]
  by_cases hn : n < 10
  · rw [Nat.toDigits_of_lt_base hn]
    constructor
    · rintro (⟨c, hc, hin⟩ | ⟨c, r, hc, hr, -⟩)
      · obtain rfl : Nat.digitChar n = c := (List.cons.inj hc).1
        rcases (hclass _).1 hin with hmem | ⟨hle, -⟩
        · exact Or.inr (Or.inr hmem)
        · exact Or.inr (Or.inl ((digitChar_le_iff (Nat.mod_lt m (by omega)) hn).1 hle))
      · exact absurd (List.cons.inj hc).2.symm hr
    · rintro (hge | hle | hmem)
      · omega
      · refine Or.inl ⟨_, rfl, (hclass _).2 (Or.inr ⟨?_, digitChar_le_nine hn⟩)⟩
        exact (digitChar_le_iff (Nat.mod_lt m (by omega)) hn).2 hle
      · exact Or.inl ⟨_, rfl, (hclass _).2 (Or.inl hmem)⟩
  · obtain ⟨c, r, hlead, hlow, hhigh⟩ := leading_ne_nil (n := n) (by omega)
    have hdigits : Nat.toDigits 10 n = c :: (r ++ [Nat.digitChar (n % 10)]) := by
      rw [toDigits_eq_leading, hlead]
      rfl
    constructor
    · exact fun _ => Or.inl (by omega)
    · intro _
      refine Or.inr ⟨c, _, hdigits, by simp, hlow, hhigh, ?_⟩
      intro x hx
      apply isDigit_of_mem_toDigits (n := n)
      rw [hdigits]
      exact List.mem_cons_of_mem _ hx

end Ivr

end Vici2
