import Vici2.Delimited
import Mathlib.Data.List.Nodup
import Mathlib.Data.List.TakeWhile

/-! The block of channel variables in front of an originate command, and how FreeSWITCH
reads it back. -/

namespace Vici2

namespace Esl

open Delimited

abbrev Text := List Char

inductive OnAnswerAction
  | park
  | conference (name : Text)
  | bridge (endpoint : Text)
  | conferenceJoinOnly (fqn : Text)
  | custom (raw : Text)
  deriving DecidableEq, Repr

def OnAnswerAction.asExecuteOnAnswer : OnAnswerAction → Text
  | .park => "park".toList
  | .conference name => "transfer:".toList ++ name ++ " XML default".toList
  | .bridge endpoint => "bridge:".toList ++ endpoint
  | .conferenceJoinOnly fqn =>
    "transfer:conference:".toList ++ fqn ++ "+flags\x7bjoin-only\x7d inline default".toList
  | .custom raw => raw

/-- What `buildChannelVars` reads of a request. The extra variables are a map, listed in the
order in which an iteration yields them. -/
structure OriginateRequest where
  preSuppliedUUID : Text
  callerIDNumber : Text
  callerIDName : Text
  originateTimeout : Int
  leadID : Int
  agentID : Int
  campaignID : Int
  tenantID : Int
  onAnswer : Option OnAnswerAction
  channelVars : List (Text × Text)
  channelVars_nodup : (channelVars.map Prod.fst).Nodup

def number (n : Int) : Text := (toString n).toList

def varsIf (p : Prop) [Decidable p] (vars : List (Text × Text)) : List (Text × Text) :=
  if p then vars else []

namespace OriginateRequest

/-- The variables that the request itself asks for, in the order in which they are added. -/
def builtIns (req : OriginateRequest) : List (Text × Text) :=
  [("origination_uuid".toList, req.preSuppliedUUID),
    ("origination_caller_id_number".toList, req.callerIDNumber),
    ("origination_caller_id_name".toList, req.callerIDName)] ++
  varsIf (0 < req.originateTimeout)
    [("originate_timeout".toList, number req.originateTimeout),
      ("call_timeout".toList, number req.originateTimeout)] ++
  [("hangup_after_bridge".toList, "true".toList), ("ignore_early_media".toList, "true".toList)] ++
  varsIf (req.leadID ≠ 0) [("lead_id".toList, number req.leadID)] ++
  varsIf (req.agentID ≠ 0) [("agent_id".toList, number req.agentID)] ++
  varsIf (req.campaignID ≠ 0) [("campaign_id".toList, number req.campaignID)] ++
  varsIf (req.tenantID ≠ 0) [("tenant_id".toList, number req.tenantID)] ++
  varsIf (req.leadID ≠ 0) [("sip_h_X-Vici2-Lead".toList, number req.leadID)] ++
  varsIf (req.campaignID ≠ 0) [("sip_h_X-Vici2-Campaign".toList, number req.campaignID)] ++
  (req.onAnswer.map fun a => ("execute_on_answer".toList, a.asExecuteOnAnswer)).toList

/-- The variables that are written: the built-in ones and the extras, without those that have
no value. -/
def vars (req : OriginateRequest) : List (Text × Text) :=
  (req.builtIns ++ req.channelVars).filter fun e => e.2 ≠ []

end OriginateRequest

def assign (e : Text × Text) : Text := e.1 ++ '=' :: e.2

def buildChannelVars (req : OriginateRequest) : Text :=
  if req.vars = [] then []
  else '\x7b' :: ([','].intercalate (req.vars.map assign) ++ ['\x7d'])

/-- A piece of the block at its first `=`; a piece without one assigns nothing. -/
def readPiece (piece : Text) : Option (Text × Text) :=
  if '=' ∈ piece then
    some (piece.takeWhile (· ≠ '='), (piece.dropWhile (· ≠ '=')).drop 1)
  else none

/-- The assignments from the opening brace to the first closing brace, and the rest of the
text. -/
def readBlock : Text → Option (List (Text × Text) × Text)
  | '\x7b' :: s =>
    some (((s.takeWhile (· ≠ '\x7d')).splitOn ',').filterMap readPiece,
      (s.dropWhile (· ≠ '\x7d')).drop 1)
  | _ => none

/-- The value that a list of assignments leaves in a variable. -/
def valueOf (vars : List (Text × Text)) (name : Text) : Text :=
  (vars.reverse.lookup name).getD []

namespace OriginateRequest

/-- The value that the request asks for, an extra variable before a built-in one. -/
def asked (req : OriginateRequest) (name : Text) : Text :=
  match req.channelVars.lookup name with
  | some value => value
  | none => (req.builtIns.lookup name).getD []

/-- The block is read to its end and gives every variable the value that is asked for. -/
def Faithful (req : OriginateRequest) : Prop :=
  ∃ vars, readBlock (buildChannelVars req) = some (vars, []) ∧
    ∀ name, valueOf vars name = req.asked name

end OriginateRequest

/-- The assignments that are read where one has been written. -/
def readings (e : Text × Text) : List (Text × Text) :=
  ((assign e).splitOn ',').filterMap readPiece

namespace OriginateRequest

/-- Names and values that are asked for hold no separator, and no value a closing brace. The
assignments that the commas in a replaced built-in value leave behind, and that the rest of
the block does not repeat, are asked for with their value. -/
structure Separable (req : OriginateRequest) : Prop where
  names : ∀ e ∈ req.channelVars, e.2 ≠ [] → ',' ∉ e.1 ∧ '\x7d' ∉ e.1 ∧ '=' ∉ e.1
  braces : ∀ e ∈ req.vars, '\x7d' ∉ e.2
  extras : ∀ e ∈ req.channelVars, ',' ∉ e.2
  kept : ∀ e ∈ req.builtIns, e.1 ∉ req.channelVars.map Prod.fst → ',' ∉ e.2
  leavings : ∀ before e after, req.vars = before ++ e :: after → e ∈ req.builtIns →
    e.1 ∈ req.channelVars.map Prod.fst → ∀ pre name value post,
      readings e = pre ++ (name, value) :: post →
      name ∉ (post ++ after.flatMap readings).map Prod.fst → req.asked name = value

end OriginateRequest

theorem lookup_eq_some_of_mem {l : List (Text × Text)} (hl : (l.map Prod.fst).Nodup)
    {e : Text × Text} (he : e ∈ l) : l.lookup e.1 = some e.2 := by
  induction l with
  | nil => exact absurd he List.not_mem_nil
  | cons x l ih =>
    rw [List.map_cons, List.nodup_cons] at hl
    rcases List.mem_cons.1 he with rfl | he
    · rw [List.lookup_cons, beq_self_eq_true]
    · have hne : e.1 ≠ x.1 := fun h => hl.1 (h ▸ List.mem_map_of_mem he)
      rw [List.lookup_cons, beq_eq_false_iff_ne.2 hne]
      exact ih hl.2 he

theorem lookup_eq_none_iff_not_mem {l : List (Text × Text)} {name : Text} :
    l.lookup name = none ↔ name ∉ l.map Prod.fst := by
  induction l with
  | nil => simp
  | cons x l ih =>
    rw [List.lookup_cons, List.map_cons, List.mem_cons, not_or]
    by_cases h : name = x.1
    · simp [h]
    · rw [beq_eq_false_iff_ne.2 h]
      simp [h, ih]

theorem mem_of_lookup {l : List (Text × Text)} {name value : Text}
    (h : l.lookup name = some value) : (name, value) ∈ l := by
  induction l with
  | nil => simp at h
  | cons x l ih =>
    rw [List.lookup_cons] at h
    by_cases hx : name = x.1
    · rw [beq_iff_eq.2 hx] at h
      obtain rfl := Option.some.inj h
      rw [hx]
      exact List.mem_cons_self
    · rw [beq_eq_false_iff_ne.2 hx] at h
      exact List.mem_cons_of_mem _ (ih h)

theorem valueOf_append {before after : List (Text × Text)} {name value : Text}
    (h : name ∉ after.map Prod.fst) : valueOf (before ++ (name, value) :: after) name = value := by
  have hafter : after.reverse.lookup name = none := by
    rw [lookup_eq_none_iff_not_mem, List.map_reverse, List.mem_reverse]
    exact h
  unfold valueOf
  rw [List.reverse_append, List.reverse_cons, List.append_assoc, List.lookup_append, hafter]
  simp

theorem valueOf_of_not_mem {vars : List (Text × Text)} {name : Text}
    (h : name ∉ vars.map Prod.fst) : valueOf vars name = [] := by
  have hnone : vars.reverse.lookup name = none := by
    rw [lookup_eq_none_iff_not_mem, List.map_reverse, List.mem_reverse]
    exact h
  rw [valueOf, hnone]
  rfl

theorem exists_last {vars : List (Text × Text)} {name : Text} (h : name ∈ vars.map Prod.fst) :
    ∃ before value after, vars = before ++ (name, value) :: after ∧
      name ∉ after.map Prod.fst := by
  induction vars with
  | nil => exact absurd h List.not_mem_nil
  | cons x vars ih =>
    by_cases hrest : name ∈ vars.map Prod.fst
    · obtain ⟨before, value, after, rfl, hafter⟩ := ih hrest
      exact ⟨x :: before, value, after, rfl, hafter⟩
    · have hx : name = x.1 := (List.mem_cons.1 h).resolve_right hrest
      exact ⟨[], x.2, vars, by rw [hx]; rfl, hrest⟩

theorem mem_of_valueOf {vars : List (Text × Text)} {name : Text} (h : valueOf vars name ≠ []) :
    (name, valueOf vars name) ∈ vars := by
  by_cases hmem : name ∈ vars.map Prod.fst
  · obtain ⟨before, value, after, rfl, hafter⟩ := exists_last hmem
    rw [valueOf_append hafter]
    simp
  · exact absurd (valueOf_of_not_mem hmem) h

theorem readPiece_eq_some {piece : Text} {e : Text × Text} (h : readPiece piece = some e) :
    '=' ∉ e.1 ∧ (∀ c ∈ e.1, c ∈ piece) ∧ ∀ c ∈ e.2, c ∈ piece := by
  unfold readPiece at h
  split_ifs at h with heq
  obtain rfl := Option.some.inj h
  refine ⟨?_, ?_, ?_⟩
  · intro hmem
    have hnot := List.mem_takeWhile_imp hmem
    simp at hnot
  · exact fun c hc => (List.takeWhile_sublist _).subset hc
  · exact fun c hc => (List.dropWhile_sublist _).subset ((List.drop_sublist _ _).subset hc)

/-- What is read has no comma, and no `=` in its name. -/
theorem clean_of_mem_readings {e e' : Text × Text} (h : e' ∈ readings e) :
    '=' ∉ e'.1 ∧ ',' ∉ e'.1 ∧ ',' ∉ e'.2 := by
  obtain ⟨piece, hpiece, hread⟩ := List.mem_filterMap.1 h
  have hcomma := not_mem_of_mem_splitOn hpiece
  obtain ⟨hname, hsub, hsub'⟩ := readPiece_eq_some hread
  exact ⟨hname, fun hc => hcomma (hsub _ hc), fun hc => hcomma (hsub' _ hc)⟩

theorem readPiece_assign {e : Text × Text} (hname : '=' ∉ e.1) : readPiece (assign e) = some e := by
  have hsplit : assign e = e.1 ++ '=' :: e.2 := rfl
  have hbefore : ∀ c ∈ e.1, (decide (c ≠ '=')) = true := by
    intro c hc
    exact decide_eq_true fun h => hname (h ▸ hc)
  unfold readPiece
  rw [if_pos (by simp [hsplit]), hsplit, List.takeWhile_append_of_pos hbefore,
    List.dropWhile_append_of_pos hbefore]
  simp

theorem readings_of_clean {e : Text × Text} (hname : '=' ∉ e.1) (hcomma : ',' ∉ e.1)
    (hvalue : ',' ∉ e.2) : readings e = [e] := by
  have hno : ',' ∉ assign e := by
    simp [assign, hcomma, hvalue]
  unfold readings
  rw [List.splitOn_eq_singleton hno, List.filterMap_cons_some (readPiece_assign hname)]
  rfl

/-- The rest behind the first closing brace is empty exactly if the block has no other. -/
theorem readBlock_whole_iff {body : Text} {vars : List (Text × Text)} :
    readBlock ('\x7b' :: (body ++ ['\x7d'])) = some (vars, []) ↔
      '\x7d' ∉ body ∧ vars = (body.splitOn ',').filterMap readPiece := by
  by_cases h : '\x7d' ∈ body
  · refine iff_of_false ?_ fun hboth => hboth.1 h
    intro hread
    obtain ⟨pre, post, rfl, hpre⟩ := List.eq_append_cons_of_mem h
    have hpre' : ∀ c ∈ pre, (decide (c ≠ '\x7d')) = true :=
      fun c hc => decide_eq_true fun he => hpre (he ▸ hc)
    rw [List.append_assoc] at hread
    simp only [readBlock, List.dropWhile_append_of_pos hpre'] at hread
    simp at hread
  · have hbody : ∀ c ∈ body, (decide (c ≠ '\x7d')) = true :=
      fun c hc => decide_eq_true fun he => h (he ▸ hc)
    have hread : readBlock ('\x7b' :: (body ++ ['\x7d'])) =
        some ((body.splitOn ',').filterMap readPiece, []) := by
      simp only [readBlock, List.takeWhile_append_of_pos hbody,
        List.dropWhile_append_of_pos hbody]
      simp
    rw [hread]
    constructor
    · intro hsome
      exact ⟨h, (Prod.ext_iff.1 (Option.some.inj hsome)).1.symm⟩
    · rintro ⟨-, rfl⟩
      rfl

variable {req : OriginateRequest}

def builtInNames : List Text :=
  ["origination_uuid".toList, "origination_caller_id_number".toList,
    "origination_caller_id_name".toList, "originate_timeout".toList, "call_timeout".toList,
    "hangup_after_bridge".toList, "ignore_early_media".toList, "lead_id".toList,
    "agent_id".toList, "campaign_id".toList, "tenant_id".toList, "sip_h_X-Vici2-Lead".toList,
    "sip_h_X-Vici2-Campaign".toList, "execute_on_answer".toList]

theorem varsIf_sublist (p : Prop) [Decidable p] (vars : List (Text × Text)) :
    ((varsIf p vars).map Prod.fst).Sublist (vars.map Prod.fst) := by
  unfold varsIf
  split_ifs
  · exact List.Sublist.refl _
  · exact List.nil_sublist _

theorem builtIns_sublist (req : OriginateRequest) :
    (req.builtIns.map Prod.fst).Sublist builtInNames := by
  have honAnswer : ((req.onAnswer.map fun a => ("execute_on_answer".toList,
      a.asExecuteOnAnswer)).toList.map Prod.fst).Sublist ["execute_on_answer".toList] := by
    cases req.onAnswer with
    | none => exact List.nil_sublist _
    | some a => exact List.Sublist.refl _
  unfold OriginateRequest.builtIns
  simp only [List.map_append]
  exact ((((((((((List.Sublist.refl _).append (varsIf_sublist _ _)).append
    (List.Sublist.refl _)).append (varsIf_sublist _ _)).append (varsIf_sublist _ _)).append
    (varsIf_sublist _ _)).append (varsIf_sublist _ _)).append (varsIf_sublist _ _)).append
    (varsIf_sublist _ _)).append honAnswer)

theorem builtIns_nodup (req : OriginateRequest) : (req.builtIns.map Prod.fst).Nodup := by
  have hnames : builtInNames.Nodup := by decide +kernel
  exact (builtIns_sublist req).nodup hnames

theorem builtIns_clean {e : Text × Text} (he : e ∈ req.builtIns) :
    ',' ∉ e.1 ∧ '\x7d' ∉ e.1 ∧ '=' ∉ e.1 := by
  have hnames : ∀ name ∈ builtInNames, ',' ∉ name ∧ '\x7d' ∉ name ∧ '=' ∉ name := by
    decide +kernel
  exact hnames e.1 ((builtIns_sublist req).subset (List.mem_map_of_mem he))

theorem vars_ne_nil (req : OriginateRequest) : req.vars ≠ [] := by
  have hmem : ("hangup_after_bridge".toList, "true".toList) ∈ req.vars := by
    apply List.mem_filter.2
    refine ⟨List.mem_append_left _ ?_, by decide⟩
    unfold OriginateRequest.builtIns
    simp only [List.mem_append, List.mem_cons, true_or, or_true]
  exact List.ne_nil_of_mem hmem

theorem faithful_iff : req.Faithful ↔ (∀ e ∈ req.vars, '\x7d' ∉ assign e) ∧
    ∀ name, valueOf (req.vars.flatMap readings) name = req.asked name := by
  have hblock : buildChannelVars req =
      '\x7b' :: ([','].intercalate (req.vars.map assign) ++ ['\x7d']) := if_neg (vars_ne_nil req)
  have hbrace : '\x7d' ∉ [','].intercalate (req.vars.map assign) ↔
      ∀ e ∈ req.vars, '\x7d' ∉ assign e := by
    rw [mem_intercalate_iff (by decide)]
    simp
  have hread : (([','].intercalate (req.vars.map assign)).splitOn ',').filterMap readPiece =
      req.vars.flatMap readings := by
    have hne : req.vars.map assign ≠ [] := by simpa using vars_ne_nil req
    rw [splitOn_intercalate_eq_flatMap hne, List.filterMap_flatMap, List.flatMap_map]
    rfl
  unfold OriginateRequest.Faithful
  simp only [hblock, readBlock_whole_iff, hbrace, hread]
  constructor
  · rintro ⟨vars, ⟨hno, rfl⟩, hvalues⟩
    exact ⟨hno, hvalues⟩
  · rintro ⟨hno, hvalues⟩
    exact ⟨_, ⟨hno, rfl⟩, hvalues⟩

theorem mem_vars {e : Text × Text} :
    e ∈ req.vars ↔ (e ∈ req.builtIns ∨ e ∈ req.channelVars) ∧ e.2 ≠ [] := by
  unfold OriginateRequest.vars
  rw [List.mem_filter, List.mem_append]
  simp

theorem asked_extra {e : Text × Text} (he : e ∈ req.channelVars) : req.asked e.1 = e.2 := by
  unfold OriginateRequest.asked
  rw [lookup_eq_some_of_mem req.channelVars_nodup he]

theorem asked_builtIn {e : Text × Text} (he : e ∈ req.builtIns)
    (hkept : e.1 ∉ req.channelVars.map Prod.fst) : req.asked e.1 = e.2 := by
  unfold OriginateRequest.asked
  rw [lookup_eq_none_iff_not_mem.2 hkept, lookup_eq_some_of_mem (builtIns_nodup req) he]
  rfl

theorem exists_of_asked {name : Text} (h : req.asked name ≠ []) :
    ∃ e ∈ req.vars, e = (name, req.asked name) ∧
      (e ∈ req.channelVars ∨ e ∈ req.builtIns ∧ e.1 ∉ req.channelVars.map Prod.fst) := by
  cases hextra : req.channelVars.lookup name with
  | some value =>
    have hmem := mem_of_lookup hextra
    have hasked : req.asked name = value := asked_extra hmem
    rw [hasked] at h ⊢
    exact ⟨_, mem_vars.2 ⟨Or.inr hmem, h⟩, rfl, Or.inl hmem⟩
  | none =>
    have hkept := lookup_eq_none_iff_not_mem.1 hextra
    cases hown : req.builtIns.lookup name with
    | some value =>
      have hmem := mem_of_lookup hown
      have hasked : req.asked name = value := asked_builtIn hmem hkept
      rw [hasked] at h ⊢
      exact ⟨_, mem_vars.2 ⟨Or.inl hmem, h⟩, rfl, Or.inr ⟨hmem, hkept⟩⟩
    | none =>
      have hnone : req.asked name = [] := by
        unfold OriginateRequest.asked
        rw [hextra, hown]
        rfl
      exact absurd hnone h

/-- The place of an element in the readings of a list, by the entry it is read from. -/
theorem exists_split_flatMap {α β : Type*} {f : α → List β} {l : List α} {B A : List β} {x : β}
    (h : l.flatMap f = B ++ x :: A) : ∃ before e after pre post, l = before ++ e :: after ∧
      f e = pre ++ x :: post ∧ A = post ++ after.flatMap f := by
  induction l generalizing B with
  | nil => simp at h
  | cons a l ih =>
    rw [List.flatMap_cons] at h
    rcases List.append_eq_append_iff.1 h with ⟨as, hB, hrest⟩ | ⟨bs, hfa, hrest⟩
    · obtain ⟨before, e, after, pre, post, rfl, hfe, hA⟩ := ih hrest
      exact ⟨a :: before, e, after, pre, post, rfl, hfe, hA⟩
    · cases bs with
      | nil =>
        obtain ⟨before, e, after, pre, post, rfl, hfe, hA⟩ := ih (B := []) hrest.symm
        exact ⟨a :: before, e, after, pre, post, rfl, hfe, hA⟩
      | cons b bs =>
        obtain ⟨rfl, rfl⟩ := List.cons.inj hrest
        exact ⟨[], a, l, B, bs, rfl, hfa, rfl⟩

theorem OriginateRequest.Faithful.separable (h : req.Faithful) : req.Separable := by
  obtain ⟨hno, hvalues⟩ := faithful_iff.1 h
  have hclean : ∀ e : Text × Text, req.asked e.1 = e.2 → e.2 ≠ [] →
      '=' ∉ e.1 ∧ ',' ∉ e.1 ∧ ',' ∉ e.2 := by
    intro e hasked hne
    have hvalue := (hvalues e.1).trans hasked
    have hmem : (e.1, valueOf (req.vars.flatMap readings) e.1) ∈ req.vars.flatMap readings :=
      mem_of_valueOf (by rw [hvalue]; exact hne)
    rw [hvalue] at hmem
    obtain ⟨e', -, hread⟩ := List.mem_flatMap.1 hmem
    exact clean_of_mem_readings hread
  constructor
  · intro e he hne
    obtain ⟨hname, hcomma, -⟩ := hclean e (asked_extra he) hne
    have hbrace := hno e (mem_vars.2 ⟨Or.inr he, hne⟩)
    exact ⟨hcomma, fun hc => hbrace (List.mem_append_left _ hc), hname⟩
  · intro e he hc
    exact hno e he (List.mem_append_right _ (List.mem_cons_of_mem _ hc))
  · intro e he
    by_cases hne : e.2 = []
    · simp [hne]
    · exact (hclean e (asked_extra he) hne).2.2
  · intro e he hkept
    by_cases hne : e.2 = []
    · simp [hne]
    · exact (hclean e (asked_builtIn he hkept) hne).2.2
  · intro before e after hvars _ _ pre name value post hread hlast
    have hflat : req.vars.flatMap readings =
        (before.flatMap readings ++ pre) ++ (name, value) :: (post ++ after.flatMap readings) := by
      rw [hvars, List.flatMap_append, List.flatMap_cons, hread]
      simp
    have hvalue := hvalues name
    rw [hflat, valueOf_append hlast] at hvalue
    exact hvalue.symm

theorem OriginateRequest.Separable.name_clean (h : req.Separable) {e : Text × Text}
    (he : e ∈ req.vars) : ',' ∉ e.1 ∧ '\x7d' ∉ e.1 ∧ '=' ∉ e.1 := by
  obtain ⟨hown | hextra, hne⟩ := mem_vars.1 he
  · exact builtIns_clean hown
  · exact h.names e hextra hne

theorem OriginateRequest.Separable.readings_eq (h : req.Separable) {e : Text × Text}
    (he : e ∈ req.vars)
    (hasked : e ∈ req.channelVars ∨ e ∈ req.builtIns ∧ e.1 ∉ req.channelVars.map Prod.fst) :
    readings e = [e] := by
  obtain ⟨hcomma, -, hname⟩ := h.name_clean he
  rcases hasked with hextra | ⟨hown, hkept⟩
  · exact readings_of_clean hname hcomma (h.extras e hextra)
  · exact readings_of_clean hname hcomma (h.kept e hown hkept)

theorem OriginateRequest.Separable.faithful (h : req.Separable) : req.Faithful := by
  refine faithful_iff.2 ⟨?_, ?_⟩
  · intro e he hc
    rcases List.mem_append.1 hc with hc | hc
    · exact (h.name_clean he).2.1 hc
    · rcases List.mem_cons.1 hc with hc | hc
      · exact absurd hc (by decide)
      · exact h.braces e he hc
  · intro name
    by_cases hmem : name ∈ (req.vars.flatMap readings).map Prod.fst
    · obtain ⟨B, value, A, hflat, hlast⟩ := exists_last hmem
      obtain ⟨before, e, after, pre, post, hvars, hread, rfl⟩ := exists_split_flatMap hflat
      have he : e ∈ req.vars := by
        rw [hvars]
        simp
      rw [hflat, valueOf_append hlast]
      -- a replaced built-in variable leaves what is asked for, any other is read as written
      by_cases hreplaced : e ∈ req.builtIns ∧ e.1 ∈ req.channelVars.map Prod.fst
      · exact (h.leavings before e after hvars hreplaced.1 hreplaced.2 pre name value post hread
          hlast).symm
      · have hsource : e ∈ req.channelVars ∨
            e ∈ req.builtIns ∧ e.1 ∉ req.channelVars.map Prod.fst := by
          rcases (mem_vars.1 he).1 with hown | hextra
          · exact Or.inr ⟨hown, fun hin => hreplaced ⟨hown, hin⟩⟩
          · exact Or.inl hextra
        rw [h.readings_eq he hsource] at hread
        have hentry : (name, value) = e := by
          have hin : (name, value) ∈ [e] := by
            rw [hread]
            simp
          exact List.mem_singleton.1 hin
        obtain rfl := hentry
        rcases hsource with hextra | ⟨hown, hkept⟩
        · exact (asked_extra hextra).symm
        · exact (asked_builtIn hown hkept).symm
    · rw [valueOf_of_not_mem hmem]
      by_contra hne
      obtain ⟨e, he, hentry, hsource⟩ := @exists_of_asked req name (Ne.symm hne)
      have hread := h.readings_eq he hsource
      apply hmem
      refine List.mem_map.2 ⟨e, List.mem_flatMap.2 ⟨e, he, ?_⟩, by rw [hentry]⟩
      rw [hread]
      exact List.mem_singleton_self e

/-- The block of channel variables is read as it is meant exactly if no text in it is taken
for its punctuation. -/
theorem channelBlock_faithful_iff (req : OriginateRequest) : req.Faithful ↔ req.Separable :=
  ⟨fun h => h.separable, fun h => h.faithful⟩

/-- A third leg that joins an agent's conference, as the operator asks for it. -/
def thirdLeg : OriginateRequest where
  preSuppliedUUID := "u1".toList
  callerIDNumber := "+14155550000".toList
  callerIDName := "Support".toList
  originateTimeout := 30
  leadID := 0
  agentID := 0
  campaignID := 0
  tenantID := 1
  onAnswer := some (.conferenceJoinOnly "agent_t1_u7@default".toList)
  channelVars := [("vici2_role".toList, "third_leg".toList)]
  channelVars_nodup := by simp

theorem thirdLeg_role_lost : ¬ thirdLeg.Faithful ∧
    ∃ vars rest, readBlock (buildChannelVars thirdLeg) = some (vars, rest) ∧
      valueOf vars "vici2_role".toList = [] := by
  have hread : (readBlock (buildChannelVars thirdLeg)).map
      (fun r => (r.2.isEmpty, valueOf r.1 "vici2_role".toList)) = some (false, []) := by
    decide +kernel
  obtain ⟨r, hr, hpair⟩ := Option.map_eq_some_iff.1 hread
  obtain ⟨hrest, hvalue⟩ := Prod.ext_iff.1 hpair
  refine ⟨?_, r.1, r.2, hr, hvalue⟩
  rintro ⟨vars, hwhole, -⟩
  rw [hr] at hwhole
  obtain rfl := Option.some.inj hwhole
  cases hrest

end Esl

end Vici2
