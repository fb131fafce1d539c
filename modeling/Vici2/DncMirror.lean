import Vici2.DncCheck

/-! The API's do-not-call check beside the dialer's. The API reads each reply of the pipeline by
itself; the dialer takes every source for a hit as soon as one command fails. -/

namespace Vici2

namespace Dnc

namespace Mirror

structure CheckRequest where
  phoneE164 : String
  tenantId : Int
  campaignId : Option String
  leadState : Option String
  sources : List Source
  deriving DecidableEq, Repr

structure CheckResult where
  isDnc : Bool
  sources : List Source
  bloomFalsePositive : Bool
  reason : Option String
  deriving DecidableEq, Repr

variable {V : Type*}

/-- `err !== null || val === 1` -/
def positiveReply : Reply V → Bool
  | .int n => decide (n = 1)
  | .error => true
  | .other _ => false

/-- Where `lost` holds, `exec` has rejected. -/
def bloomMexistsPipeline (lost : Bool) (c : BloomClient V) (sources : List Source)
    (tenantId : Int) (phone : String) : Source → Bool :=
  if lost then fun s => decide (s ∈ sources)
  else (c.cmds sources tenantId phone).foldl
    (fun map x => Function.update map x.1 (positiveReply x.2)) fun _ => false

def confirmMySQL (coll : String → String) (db : Option (List DncRow)) (now : Int)
    (phone : String) (tenantId : Int) (campaignId leadState : Option String)
    (positiveSources : List Source) : Option (List Source) :=
  db.map fun table => confirmedSources coll table now
    ⟨phone, tenantId, campaignId.getD "__GLOBAL__", leadState.getD "__"⟩ positiveSources

def positiveSources (lost : Bool) (c : BloomClient V) (req : CheckRequest) (phone : String) :
    List Source :=
  req.sources.filter (bloomMexistsPipeline lost c req.sources req.tenantId phone)

/-- `normalizePhone` is libphonenumber's; `db` is `none` where the query fails. -/
def dncCheck (normalizePhone : String → Option String) (coll : String → String) (lost : Bool)
    (c : BloomClient V) (db : Option (List DncRow)) (now : Int) (req : CheckRequest) :
    CheckResult :=
  match normalizePhone req.phoneE164 with
  | none => ⟨true, [], false, some "malformed"⟩
  | some phone =>
    let positive := positiveSources lost c req phone
    if positive = [] then ⟨false, [], false, none⟩
    else
      let confirmed := (confirmMySQL coll db now phone req.tenantId req.campaignId req.leadState
        positive).getD positive
      let bloomFp := decide (positive ≠ [] ∧ confirmed = [])
      if confirmed = [] then ⟨false, [], bloomFp, none⟩
      else ⟨true, sortSources confirmed, false, none⟩

def CheckRequest.toGo (req : CheckRequest) (phone : String) : Dnc.CheckRequest :=
  ⟨phone, req.tenantId, req.campaignId.getD "", req.leadState.getD "", req.sources⟩

/-- What the API's query is given for the phone, the campaign and the state. -/
def CheckRequest.args (req : CheckRequest) (phone : String) : ConfirmArgs :=
  ⟨phone, req.tenantId, req.campaignId.getD "__GLOBAL__", req.leadState.getD "__"⟩

/-- What the dialer's query is given for them. -/
def goArgs (req : Dnc.CheckRequest) : ConfirmArgs :=
  ⟨req.phoneE164, req.tenantID, if req.campaignID = "" then "__GLOBAL__" else req.campaignID,
    if req.leadState = "" then "__" else req.leadState⟩

/-- The two ask one store. `BF.EXISTS` answers 0 or 1, and a lost connection fails every
command. -/
structure OneStore (lost : Bool) (c : BloomClient V) (req : CheckRequest) (phone : String) :
    Prop where
  replies : ∀ x ∈ c.cmds req.sources req.tenantId phone,
    x.2 = .int 0 ∨ x.2 = .int 1 ∨ x.2 = .error
  lost : lost = true → ∀ x ∈ c.cmds req.sources req.tenantId phone, x.2 = .error

/-- A source on which the answer hangs: one that lists the phone, or any where MySQL is down. -/
def Suspect (coll : String → String) (db : Option (List DncRow)) (now : Int)
    (sources : List Source) (args : ConfirmArgs) (s : Source) : Prop :=
  match db with
  | none => s ∈ sources
  | some table => ∃ r ∈ table,
      (r.source ∈ sources ∧ r.live now = true ∧ args.covers coll r = true) ∧ r.source = s

section

variable {coll : String → String} {lost : Bool} {c : BloomClient V} {db : Option (List DncRow)}
  {now : Int} {req : CheckRequest} {phone : String} {s : Source} {sources : List Source}
  {args : ConfirmArgs}

theorem Suspect.mem_sources (h : Suspect coll db now sources args s) : s ∈ sources := by
  cases db with
  | none => exact h
  | some table =>
    obtain ⟨r, -, hl, rfl⟩ := h
    exact hl.1

/-- The dialer takes the empty text for none. -/
theorem ite_getD (given : Option String) (default : String) (h : given ≠ some "") :
    (if given.getD "" = "" then default else given.getD "") = given.getD default := by
  cases given with
  | none => rfl
  | some t => exact if_neg fun ht => h (congrArg some ht)

theorem ite_getD_cases (given : Option String) (default : String) :
    (if given.getD "" = "" then default else given.getD "") = default ∨
      (if given.getD "" = "" then default else given.getD "") = given.getD default := by
  by_cases h : given = some ""
  · subst h
    exact Or.inl rfl
  · exact Or.inr (ite_getD given default h)

/-- A campaign or state that the dialer does not know lists no phone for it. -/
theorem Suspect.of_go (h : Suspect coll db now req.sources (goArgs (req.toGo phone)) s) :
    Suspect coll db now req.sources (req.args phone) s := by
  cases db with
  | none => exact h
  | some table =>
    obtain ⟨r, hr, ⟨hsource, hlive, hcov⟩, rfl⟩ := h
    refine ⟨r, hr, ⟨hsource, hlive, ?_⟩, rfl⟩
    have hcampaign := ite_getD_cases req.campaignId "__GLOBAL__"
    have hstate := ite_getD_cases req.leadState "__"
    unfold ConfirmArgs.covers goArgs CheckRequest.toGo at hcov
    unfold ConfirmArgs.covers CheckRequest.args
    simp only [Bool.and_eq_true] at hcov ⊢
    refine ⟨hcov.1, ?_⟩
    have hkind := hcov.2
    cases hsrc : r.source with
    | federal => rfl
    | litigator => rfl
    | other name =>
      rw [hsrc] at hkind
      exact hkind
    | internal =>
      simp only [hsrc, Bool.and_eq_true, Bool.or_eq_true, decide_eq_true_eq] at hkind ⊢
      refine ⟨hkind.1, ?_⟩
      rcases hcampaign with heq | heq
      · rw [heq, or_self] at hkind
        exact Or.inl hkind.2
      · rw [← heq]
        exact hkind.2
    | state =>
      simp only [hsrc, Bool.and_eq_true, Bool.or_eq_true, decide_eq_true_eq] at hkind ⊢
      refine ⟨hkind.1, ?_⟩
      rcases hstate with heq | heq
      · rw [heq, or_self] at hkind
        exact Or.inr hkind.2
      · rw [← heq]
        exact hkind.2

theorem goArgs_toGo (hcampaign : req.campaignId ≠ some "") (hstate : req.leadState ≠ some "") :
    goArgs (req.toGo phone) = req.args phone := by
  unfold goArgs CheckRequest.toGo CheckRequest.args
  simp only [ite_getD _ _ hcampaign, ite_getD _ _ hstate]

theorem OneStore.reply (h : OneStore lost c req phone) {r : Reply V}
    (hr : c.replyFor (req.toGo phone) s = some r) :
    (r = .int 0 ∨ r = .int 1 ∨ r = .error) ∧ (lost = true → r = .error) := by
  have hmem : (s, r) ∈ c.cmds req.sources req.tenantId phone := by
    rcases mem_of_lastReplyFrom hr with hnone | hmem
    · cases hnone
    · exact hmem
  exact ⟨h.replies _ hmem, fun hlost => h.lost hlost _ hmem⟩

theorem mem_positiveSources (h : OneStore lost c req phone) :
    s ∈ positiveSources lost c req phone ↔
      s ∈ req.sources ∧ c.replyFor (req.toGo phone) s ≠ some (.int 0) := by
  unfold positiveSources
  rw [List.mem_filter]
  apply and_congr_right
  intro hs
  obtain ⟨r, hr⟩ := @BloomClient.replyFor_isSome V c (req.toGo phone) s hs
  unfold bloomMexistsPipeline
  cases hlost : lost with
  | true =>
    have herr := (h.reply hr).2 hlost
    subst herr
    simp [hs, hr]
  | false =>
    have hfold := foldl_update_eq_lastReplyFrom positiveReply
      (c.cmds req.sources req.tenantId phone) (fun _ => false) none s rfl
    have hlast : lastReplyFrom s none (c.cmds req.sources req.tenantId phone) = some r := hr
    rw [hlast] at hfold
    simp only [Bool.false_eq_true, if_false, hfold, hr]
    rcases (h.reply hr).1 with rfl | rfl | rfl
    · simp [positiveReply]
    · simp [positiveReply]
    · simp [positiveReply]

theorem mem_goPositiveSources (h : OneStore lost c req phone) :
    s ∈ Dnc.positiveSources c (req.toGo phone) ↔ s ∈ req.sources ∧
      (c.execErr (req.toGo phone) = true ∨ c.replyFor (req.toGo phone) s ≠ some (.int 0)) := by
  rw [Dnc.mem_positiveSources]
  apply and_congr_right
  intro hs
  obtain ⟨r, hr⟩ := @BloomClient.replyFor_isSome V c (req.toGo phone) s hs
  simp only [hr, Option.some.injEq, exists_eq_left', ne_eq]
  rcases (h.reply hr).1 with rfl | rfl | rfl
  · simp [BloomClient.hit, BloomClient.cmdInt, Reply.isError]
  · simp [BloomClient.hit, BloomClient.cmdInt, Reply.isError]
  · simp [BloomClient.hit, BloomClient.cmdInt, Reply.isError]

theorem positiveSources_eq (h : OneStore lost c req phone)
    (hexec : c.execErr (req.toGo phone) = false) :
    positiveSources lost c req phone = Dnc.positiveSources c (req.toGo phone) := by
  have hiff : ∀ s, s ∈ positiveSources lost c req phone ↔
      s ∈ Dnc.positiveSources c (req.toGo phone) := by
    intro s
    rw [mem_positiveSources h, mem_goPositiveSources h]
    simp [hexec]
  unfold positiveSources Dnc.positiveSources at hiff ⊢
  apply List.filter_congr
  intro s hs
  have hs' := hiff s
  rw [List.mem_filter, List.mem_filter] at hs'
  rw [Bool.eq_iff_iff]
  exact ⟨fun hp => (hs'.1 ⟨hs, hp⟩).2, fun hp => (hs'.2 ⟨hs, hp⟩).2⟩

theorem confirmedSources_ne_nil_iff {table : List DncRow} {positive : List Source}
    (hsub : positive ⊆ sources) : confirmedSources coll table now args positive ≠ [] ↔
      ∃ s, Suspect coll (some table) now sources args s ∧ s ∈ positive := by
  constructor
  · intro hl
    obtain ⟨s, hs⟩ := List.exists_mem_of_ne_nil _ hl
    obtain ⟨r, hr, rfl, hcov, hpos, hlive⟩ := mem_confirmedSources hs
    exact ⟨r.source, ⟨r, hr, ⟨hsub hpos, hlive, hcov⟩, rfl⟩, hpos⟩
  · rintro ⟨s, ⟨r, hr, ⟨-, hlive, hcov⟩, rfl⟩, hpos⟩
    exact confirmedSources_ne_nil hr hcov hpos hlive

/-- The dialer stops a phone exactly for a suspect source that the pipeline does not clear. -/
theorem isDNC_iff (h : OneStore lost c req phone) (he : e164RE phone = true) :
    (check coll c db now (req.toGo phone)).isDNC = true ↔
      ∃ s, Suspect coll db now req.sources (goArgs (req.toGo phone)) s ∧
        (c.execErr (req.toGo phone) = true ∨
          c.replyFor (req.toGo phone) s ≠ some (.int 0)) := by
  have hpositive : (check coll c db now (req.toGo phone)).isDNC = true ↔
      ∃ s, Suspect coll db now req.sources (goArgs (req.toGo phone)) s ∧
        s ∈ Dnc.positiveSources c (req.toGo phone) := by
    have he' : e164RE (req.toGo phone).phoneE164 = true := he
    cases db with
    | some table =>
      rw [check_isDNC_iff, he']
      constructor
      · rintro (hm | ⟨r, hr, hl, hp⟩)
        · cases hm
        · exact ⟨r.source, ⟨r, hr, hl, rfl⟩, hp⟩
      · rintro ⟨s, ⟨r, hr, hl, rfl⟩, hp⟩
        exact Or.inr ⟨r, hr, hl, hp⟩
    | none =>
      by_cases hnil : Dnc.positiveSources c (req.toGo phone) = []
      · simp [check, he', hnil]
      · obtain ⟨s, hs⟩ := List.exists_mem_of_ne_nil _ hnil
        have hsuspect : ∃ s, Suspect coll none now req.sources (goArgs (req.toGo phone)) s ∧
            s ∈ Dnc.positiveSources c (req.toGo phone) :=
          ⟨s, (Dnc.mem_positiveSources.1 hs).1, hs⟩
        simp [check, he', hnil, Dnc.confirmMySQL, hsuspect]
  rw [hpositive]
  refine exists_congr fun s => and_congr_right fun hs => ?_
  rw [mem_goPositiveSources h]
  exact and_iff_right hs.mem_sources

variable {normalizePhone : String → Option String}

/-- The API stops a phone exactly for a suspect source that its own filter does not clear. -/
theorem isDnc_iff (h : OneStore lost c req phone)
    (hphone : normalizePhone req.phoneE164 = some phone) :
    (dncCheck normalizePhone coll lost c db now req).isDnc = true ↔
      ∃ s, Suspect coll db now req.sources (req.args phone) s ∧
        c.replyFor (req.toGo phone) s ≠ some (.int 0) := by
  have hpositive : (dncCheck normalizePhone coll lost c db now req).isDnc = true ↔
      ∃ s, Suspect coll db now req.sources (req.args phone) s ∧
        s ∈ positiveSources lost c req phone := by
    have hsub : positiveSources lost c req phone ⊆ req.sources :=
      fun s hs => ((mem_positiveSources h).1 hs).1
    unfold dncCheck
    rw [hphone]
    by_cases hnil : positiveSources lost c req phone = []
    · simp [hnil]
    cases db with
    | none =>
      obtain ⟨s, hs⟩ := List.exists_mem_of_ne_nil _ hnil
      have hsuspect : ∃ s, Suspect coll none now req.sources (req.args phone) s ∧
          s ∈ positiveSources lost c req phone := ⟨s, hsub hs, hs⟩
      simp only [hnil, if_false, confirmMySQL, Option.map_none, Option.getD_none, hsuspect]
    | some table =>
      rw [← confirmedSources_ne_nil_iff hsub]
      simp only [hnil, if_false, confirmMySQL, Option.map_some, Option.getD_some,
        CheckRequest.args]
      by_cases hempty : confirmedSources coll table now ⟨phone, req.tenantId,
          req.campaignId.getD "__GLOBAL__", req.leadState.getD "__"⟩
          (positiveSources lost c req phone) = []
      · simp [hempty]
      · simp [hempty]
  rw [hpositive]
  refine exists_congr fun s => and_congr_right fun hs => ?_
  rw [mem_positiveSources h]
  exact and_iff_right hs.mem_sources

/-- Where no command fails and no campaign or state is the empty text, the two answer alike, but
that the API sorts the sources also when MySQL is down. -/
theorem dncCheck_eq_check (h : OneStore lost c req phone)
    (hphone : normalizePhone req.phoneE164 = some phone) (he : e164RE phone = true)
    (hexec : c.execErr (req.toGo phone) = false) (hcampaign : req.campaignId ≠ some "")
    (hstate : req.leadState ≠ some "") :
    dncCheck normalizePhone coll lost c db now req =
      let r := check coll c db now (req.toGo phone)
      ⟨r.isDNC, if db = none then sortSources r.sources else r.sources,
        r.bloomFalsePositive, none⟩ := by
  have hpos := positiveSources_eq h hexec
  have he' : e164RE (req.toGo phone).phoneE164 = true := he
  unfold dncCheck check
  rw [hphone, he']
  simp only [hpos, Bool.true_eq_false, if_false]
  by_cases hnil : Dnc.positiveSources c (req.toGo phone) = []
  · simp [hnil, sortSources]
  have hconfirm : Dnc.confirmMySQL coll db now (req.toGo phone)
      (Dnc.positiveSources c (req.toGo phone)) =
        confirmMySQL coll db now phone req.tenantId req.campaignId req.leadState
          (Dnc.positiveSources c (req.toGo phone)) := by
    have hargs := @goArgs_toGo req phone hcampaign hstate
    unfold goArgs CheckRequest.args at hargs
    unfold Dnc.confirmMySQL confirmMySQL
    simp only [if_neg hnil, hargs]
  rw [hconfirm]
  simp only [if_neg hnil]
  cases db with
  | none => simp [confirmMySQL, hnil]
  | some table =>
    simp only [confirmMySQL, Option.map_some, Option.getD_some]
    by_cases hempty : confirmedSources coll table now ⟨phone, req.tenantId,
        req.campaignId.getD "__GLOBAL__", req.leadState.getD "__"⟩
        (Dnc.positiveSources c (req.toGo phone)) = []
    · simp [hempty, hnil]
    · simp [hempty]

/-- The API clears a phone that the dialer stops exactly where a command of the pipeline failed,
the dialer's query has a suspect source, and the filters clear every suspect source of the API's
query. It stops a phone that the dialer clears exactly where a suspect source of its own query is
not cleared and every one of the dialer's is, without a failed command; the two queries have the
same suspects but for a campaign or a state that is given as the empty text. -/
theorem dncCheck_mirrors (h : OneStore lost c req phone)
    (hphone : normalizePhone req.phoneE164 = some phone) (he : e164RE phone = true) :
    ((dncCheck normalizePhone coll lost c db now req).isDnc = false ∧
        (check coll c db now (req.toGo phone)).isDNC = true ↔
      c.execErr (req.toGo phone) = true ∧
        (∃ s, Suspect coll db now req.sources (goArgs (req.toGo phone)) s) ∧
        ∀ s, Suspect coll db now req.sources (req.args phone) s →
          c.replyFor (req.toGo phone) s = some (.int 0)) ∧
      ((dncCheck normalizePhone coll lost c db now req).isDnc = true ∧
          (check coll c db now (req.toGo phone)).isDNC = false ↔
        (∃ s, Suspect coll db now req.sources (req.args phone) s ∧
          c.replyFor (req.toGo phone) s ≠ some (.int 0)) ∧
        ∀ s, Suspect coll db now req.sources (goArgs (req.toGo phone)) s →
          c.execErr (req.toGo phone) = false ∧
            c.replyFor (req.toGo phone) s = some (.int 0)) ∧
      (req.campaignId ≠ some "" → req.leadState ≠ some "" →
        goArgs (req.toGo phone) = req.args phone ∧
          (c.execErr (req.toGo phone) = false →
            dncCheck normalizePhone coll lost c db now req =
              let r := check coll c db now (req.toGo phone)
              ⟨r.isDNC, if db = none then sortSources r.sources else r.sources,
                r.bloomFalsePositive, none⟩)) := by
  have hgo := @isDNC_iff V coll lost c db now req phone h he
  have hapi := @isDnc_iff V coll lost c db now req phone normalizePhone h hphone
  refine ⟨?_, ?_, fun hcampaign hstate => ⟨goArgs_toGo hcampaign hstate, fun hexec =>
    dncCheck_eq_check h hphone he hexec hcampaign hstate⟩⟩
  · rw [← Bool.not_eq_true, hapi, hgo]
    push Not
    constructor
    · rintro ⟨hclear, s, hs, hhit⟩
      refine ⟨?_, ⟨s, hs⟩, hclear⟩
      rcases hhit with hexec | hreply
      · exact hexec
      · exact absurd (hclear s hs.of_go) hreply
    · rintro ⟨hexec, ⟨s, hs⟩, hclear⟩
      exact ⟨hclear, s, hs, Or.inl hexec⟩
  · rw [← Bool.not_eq_true (check coll c db now (req.toGo phone)).isDNC, hapi, hgo]
    push Not
    simp only [ne_eq, Bool.not_eq_true]

end

/-- The federal filter cannot be read, and the internal one has lost its phones. -/
def failing : BloomClient Unit where
  reply i _ _ := if i = 0 then .error else .int 0
  toInt _ := none

def sampleRequest : CheckRequest := ⟨"+14155551212", 1, none, none, [.federal, .internal]⟩

def listedRow : DncRow := ⟨1, "+14155551212", .internal, "__", "__GLOBAL__", none⟩

def answering : BloomClient Unit where
  reply _ _ _ := .int 1
  toInt _ := none

def emptyCampaign : CheckRequest := { sampleRequest with campaignId := some "" }

def emptyCampaignRow : DncRow := { listedRow with campaignID := "" }

theorem failing_clears_listed :
    ((dncCheck some id false failing (some [listedRow]) 0 sampleRequest).isDnc = false ∧
        (check id failing (some [listedRow]) 0 (sampleRequest.toGo "+14155551212")).isDNC = true) ∧
      ((dncCheck some id false answering (some [emptyCampaignRow]) 0 emptyCampaign).isDnc = true ∧
        (check id answering (some [emptyCampaignRow]) 0
          (emptyCampaign.toGo "+14155551212")).isDNC = false) ∧
      (dncCheck some id false answering (some [listedRow]) 0 sampleRequest).sources =
        (check id answering (some [listedRow]) 0 (sampleRequest.toGo "+14155551212")).sources := by
  have hfailing := @dncCheck_mirrors Unit id false failing (some [listedRow]) 0 sampleRequest
    "+14155551212" some ⟨by decide, by decide⟩ rfl (by decide)
  have hempty := @dncCheck_mirrors Unit id false answering (some [emptyCampaignRow]) 0 emptyCampaign
    "+14155551212" some ⟨by decide, by decide⟩ rfl (by decide)
  have hanswering := @dncCheck_mirrors Unit id false answering (some [listedRow]) 0 sampleRequest
    "+14155551212" some ⟨by decide, by decide⟩ rfl (by decide)
  refine ⟨hfailing.1.2 ⟨by decide, ⟨.internal, listedRow, by decide, by decide, rfl⟩, ?_⟩,
    hempty.2.1.2 ⟨⟨.internal, ⟨emptyCampaignRow, by decide, by decide, rfl⟩, by decide⟩, ?_⟩, ?_⟩
  · rintro s ⟨r, hr, -, rfl⟩
    obtain rfl := List.mem_singleton.1 hr
    decide
  · rintro s ⟨r, hr, ⟨-, -, hcovers⟩, rfl⟩
    obtain rfl := List.mem_singleton.1 hr
    exact absurd hcovers (by decide)
  · rw [(hanswering.2.2 (by decide) (by decide)).2 (by decide)]
    rfl

end Mirror

end Dnc

end Vici2
