import Vici2.DncCheck
import Vici2.JsDate

/-! The scrub against the database of reassigned numbers: its results become rows of the
do-not-call table under a source of their own. The dialer finds a row only if its check
asks for the row's source, and the query confirms it. -/

namespace Vici2

namespace Dnc

open JsDate

inductive RndResult
  | yes
  | no
  | noData
  | other (text : String)
  deriving DecidableEq, Repr

structure RndResultItem where
  tn : String
  result : RndResult
  disconnectDate : Option String
  queriedAt : String
  deriving DecidableEq, Repr

inductive ConsentDateSrc
  | pewc
  | ebr
  | inferred
  | fallback
  deriving DecidableEq, Repr

structure PhoneWithConsent where
  phoneE164 : String
  consentDate : Int
  consentDateSrc : ConsentDateSrc
  deriving DecidableEq, Repr

inductive NoDataPolicy
  | safe
  | block
  deriving DecidableEq, Repr

/-- A row of `rnd_lookup_log`. A date that cannot be parsed is an invalid one. -/
structure LookupRow where
  tenantId : Int
  scrubJobId : String
  phoneE164 : String
  consentDate : Int
  consentDateSrc : ConsentDateSrc
  result : RndResult
  disconnectDate : Option (Option Int)
  queriedAt : Option Int
  dncInserted : Bool
  deriving DecidableEq, Repr

structure DncNumber where
  phoneE164 : String
  disconnectDate : Option String
  asOf : String
  deriving DecidableEq, Repr

structure AuditEvent where
  tenantId : Int
  action : String
  phoneE164Masked : String
  disconnectDate : Option String
  scrubJobId : String
  consentDateSrc : ConsentDateSrc
  deriving DecidableEq, Repr

structure ScrubBatch where
  tenantId : Int
  scrubJobId : String
  results : List RndResultItem
  originals : List PhoneWithConsent
  noDataPolicy : NoDataPolicy
  deriving DecidableEq, Repr

/-- What is outside the writer: the clock in each round of the loop, `new Date` of a text,
which commands succeed, and the table after a statement whose texts do not stay inside
their quotes. -/
structure ScrubEnv where
  coll : String → String
  clock : Nat → Int
  parseDate : String → Option Int
  audit : AuditEvent → Bool
  createMany : List LookupRow → Bool
  executeRaw : Bool
  broken : List DncNumber → List DncRow → Option (List DncRow)
  update : Bool

structure WriteState where
  yesCount : Nat
  noCount : Nat
  noDataCount : Nat
  errorCount : Nat
  dncInserted : Nat
  lookupRows : List LookupRow
  dncNumbers : List DncNumber
  audits : List AuditEvent
  deriving DecidableEq, Repr

def maskPhone (e164 : String) : String :=
  if e164.length ≤ 4 then "****"
  else String.ofList (e164.toList.take (e164.length - 4)) ++ "****"

def formatDate (d : Int) : String := String.ofList (isoDate d)

/-- `replace(/'/g, "\\'")` -/
def escapeSql (s : List Char) : List Char := s.flatMap fun c => if c = '\'' then ['\\', '\''] else [c]

def unescape (c : Char) : List Char :=
  match c with
  | '0' => [Char.ofNat 0]
  | 'b' => [Char.ofNat 8]
  | 't' => ['\t']
  | 'n' => ['\n']
  | 'r' => ['\r']
  | 'Z' => [Char.ofNat 26]
  | '%' => ['\\', '%']
  | '_' => ['\\', '_']
  | c => [c]

/-- What MySQL reads between two quotes, unless the text ends the literal before its end
or runs over it. -/
def readLiteral : List Char → Option (List Char)
  | [] => some []
  | '\\' :: c :: rest => (readLiteral rest).map (unescape c ++ ·)
  | ['\\'] => none
  | '\'' :: '\'' :: rest => (readLiteral rest).map ('\'' :: ·)
  | '\'' :: _ => none
  | c :: rest => (readLiteral rest).map (c :: ·)

def DncNumber.phoneLiteral (n : DncNumber) : List Char := escapeSql n.phoneE164.toList

def DncNumber.notesLiteral (n : DncNumber) : List Char :=
  ("RND:Yes:disconnect=" ++ n.disconnectDate.getD "unknown" ++ ":as_of=" ++ n.asOf).toList

def DncNumber.closes (n : DncNumber) : Bool :=
  (readLiteral n.phoneLiteral).isSome && (readLiteral n.notesLiteral).isSome

/-- The phone as it is read and, by `INSERT IGNORE`, cut for `VARCHAR(16)`. -/
def storedPhone (phone : String) : String :=
  String.ofList (((readLiteral (escapeSql phone.toList)).getD []).take 16)

def reassigned : Source := .other "reassigned"

def reassignedRow (tenantId : Int) (phone : String) : DncRow :=
  ⟨tenantId, phone, reassigned, "__", "__GLOBAL__", none⟩

def isDncCandidate (noDataPolicy : NoDataPolicy) (r : RndResultItem) : Bool :=
  decide (r.result = .yes) || (decide (r.result = .noData) && decide (noDataPolicy = .block))

section

variable (env : ScrubEnv) (p : ScrubBatch)

/-- The last of the originals under a phone is the one in the map. -/
def originalOf (tn : String) : Option PhoneWithConsent :=
  (p.originals.filter fun o => o.phoneE164 == tn).getLast?

def lookupRow (now : Int) (r : RndResultItem) : LookupRow :=
  let orig := originalOf p r.tn
  { tenantId := p.tenantId
    scrubJobId := p.scrubJobId
    phoneE164 := r.tn
    consentDate := (orig.map PhoneWithConsent.consentDate).getD now
    consentDateSrc := (orig.map PhoneWithConsent.consentDateSrc).getD .fallback
    result := r.result
    disconnectDate := (r.disconnectDate.filter fun d => d ≠ "").map env.parseDate
    queriedAt := env.parseDate r.queriedAt
    dncInserted := isDncCandidate p.noDataPolicy r }

def dncNumber (r : RndResultItem) (disconnectDate : Option String) : DncNumber :=
  ⟨r.tn, disconnectDate, ((originalOf p r.tn).map fun o => formatDate o.consentDate).getD "unknown"⟩

def flaggedEvent (r : RndResultItem) : AuditEvent :=
  { tenantId := p.tenantId
    action := "rnd.number.flagged_reassigned"
    phoneE164Masked := maskPhone r.tn
    disconnectDate := r.disconnectDate
    scrubJobId := p.scrubJobId
    consentDateSrc :=
      ((originalOf p r.tn).map PhoneWithConsent.consentDateSrc).getD .fallback }

/-- A round of the loop; each round has added one row to the lookup log. -/
def writeResult (st : WriteState) (r : RndResultItem) : WriteState :=
  let st :=
    { st with lookupRows := st.lookupRows ++ [lookupRow env p (env.clock st.lookupRows.length) r] }
  match r.result with
  | .yes =>
    { st with
      yesCount := st.yesCount + 1
      dncNumbers := st.dncNumbers ++ [dncNumber p r r.disconnectDate]
      dncInserted := st.dncInserted + 1
      audits := st.audits ++ [flaggedEvent p r] }
  | .no => { st with noCount := st.noCount + 1 }
  | .noData =>
    let st := { st with noDataCount := st.noDataCount + 1 }
    if p.noDataPolicy = .block then
      { st with
        dncNumbers := st.dncNumbers ++ [dncNumber p r none]
        dncInserted := st.dncInserted + 1 }
    else st
  | .other _ => { st with errorCount := st.errorCount + 1 }

def insertNumbers (numbers : List DncNumber) (table : List DncRow) : Option (List DncRow) :=
  if numbers.all DncNumber.closes = true then
    if env.executeRaw = true then
      some (insertIgnore env.coll table
        (numbers.map fun n => reassignedRow p.tenantId (storedPhone n.phoneE164)))
    else none
  else env.broken numbers table

/-- `writeResults`: the table and the result, where no command throws. -/
def writeResults (table : List DncRow) : Option (List DncRow × WriteState) :=
  let st := p.results.foldl (writeResult env p) ⟨0, 0, 0, 0, 0, [], [], []⟩
  if st.audits.all env.audit = true ∧ (st.lookupRows = [] ∨ env.createMany st.lookupRows = true) then
    let inserted := if st.dncNumbers = [] then some table else insertNumbers env p st.dncNumbers table
    inserted.bind fun table => if env.update = true then some (table, st) else none
  else none

end

def allSources : List Source := [.federal, .state, .internal, .litigator]

def HasLiveRow (table : List DncRow) (now : Int) (tenantId : Int) (phone : String) : Prop :=
  ∃ r ∈ table, r.tenantID = tenantId ∧ r.phoneE164 = phone ∧ r.live now = true

/-- The filters answer 1 for the rows that their writers have added. -/
def BloomAnswers {V : Type*} (coll : String → String) (c : BloomClient V) (now : Int)
    (req : CheckRequest) (table : List DncRow) : Prop :=
  ∀ r ∈ table, ListedRow coll now req r → c.replyFor req r.source = some (.int 1)

def dialRequest (p : ScrubBatch) (phone campaignID leadState : String) : CheckRequest :=
  ⟨phone, p.tenantId, campaignID, leadState, allSources⟩

theorem readLiteral_escapeSql {s : List Char} (h : '\\' ∉ s) : readLiteral (escapeSql s) = some s := by
  induction s with
  | nil => rfl
  | cons c s ih =>
    have hs : readLiteral (escapeSql s) = some s := ih fun hm => h (List.mem_cons_of_mem _ hm)
    have hc : c ≠ '\\' := fun hc => h (hc ▸ List.mem_cons_self)
    by_cases hq : c = '\''
    · subst hq
      have hesc : escapeSql ('\'' :: s) = '\\' :: '\'' :: escapeSql s := rfl
      rw [hesc, readLiteral, hs]
      rfl
    · have hesc : escapeSql (c :: s) = c :: escapeSql s := by
        simp [escapeSql, hq]
      simp [hesc, readLiteral, hs, hc, hq]

/-- A number of at most 16 characters, none of them a backslash, is stored as it was given. -/
theorem storedPhone_eq {phone : String} (hlen : phone.length ≤ 16) (h : '\\' ∉ phone.toList) :
    storedPhone phone = phone := by
  rw [storedPhone, readLiteral_escapeSql h, Option.getD_some,
    List.take_of_length_le (by rwa [String.length_toList]), String.ofList_toList]

section

variable {env : ScrubEnv} {p : ScrubBatch}

def candidates (p : ScrubBatch) : List RndResultItem :=
  p.results.filter (isDncCandidate p.noDataPolicy)

def candidateNumber (p : ScrubBatch) (r : RndResultItem) : DncNumber :=
  dncNumber p r (if r.result = .yes then r.disconnectDate else none)

/-- What the loop has gathered from the results `rs`. -/
structure Tallied (p : ScrubBatch) (rs : List RndResultItem) (st : WriteState) : Prop where
  flagged : (st.lookupRows.map fun row => (row.phoneE164, row.dncInserted)) =
    rs.map fun r => (r.tn, isDncCandidate p.noDataPolicy r)
  numbers : st.dncNumbers = (rs.filter (isDncCandidate p.noDataPolicy)).map (candidateNumber p)
  count : st.dncInserted = st.dncNumbers.length

theorem Tallied.step {rs : List RndResultItem} {st : WriteState} (h : Tallied p rs st)
    (r : RndResultItem) : Tallied p (rs ++ [r]) (writeResult env p st r) := by
  obtain ⟨hflagged, hnumbers, hcount⟩ := h
  cases hr : r.result with
  | yes =>
    have hcand : isDncCandidate p.noDataPolicy r = true := by simp [isDncCandidate, hr]
    constructor <;>
      simp [writeResult, hr, hcand, hflagged, hnumbers, hcount, lookupRow, candidateNumber]
  | no =>
    have hcand : isDncCandidate p.noDataPolicy r = false := by simp [isDncCandidate, hr]
    constructor <;> simp [writeResult, hr, hcand, hflagged, hnumbers, hcount, lookupRow]
  | noData =>
    by_cases hblock : p.noDataPolicy = .block
    · have hcand : isDncCandidate p.noDataPolicy r = true := by simp [isDncCandidate, hr, hblock]
      rw [hblock] at hcand hflagged hnumbers
      constructor <;>
        simp [writeResult, hr, hblock, hcand, hflagged, hnumbers, hcount, lookupRow, candidateNumber]
    · have hcand : isDncCandidate p.noDataPolicy r = false := by simp [isDncCandidate, hr, hblock]
      constructor <;> simp [writeResult, hr, hblock, hcand, hflagged, hnumbers, hcount, lookupRow]
  | other text =>
    have hcand : isDncCandidate p.noDataPolicy r = false := by simp [isDncCandidate, hr]
    constructor <;> simp [writeResult, hr, hcand, hflagged, hnumbers, hcount, lookupRow]

theorem Tallied.foldl {rs : List RndResultItem} {st : WriteState} (h : Tallied p rs st)
    (rs' : List RndResultItem) : Tallied p (rs ++ rs') (rs'.foldl (writeResult env p) st) := by
  induction rs' generalizing rs st with
  | nil => simpa using h
  | cons r rs' ih => simpa using ih (h.step r)

theorem Tallied.flagged_iff {rs : List RndResultItem} {st : WriteState} (h : Tallied p rs st)
    (phone : String) :
    (∃ row ∈ st.lookupRows, row.phoneE164 = phone ∧ row.dncInserted = true) ↔
      ∃ r ∈ rs, r.tn = phone ∧ isDncCandidate p.noDataPolicy r = true := by
  have hmem : (phone, true) ∈ (st.lookupRows.map fun row => (row.phoneE164, row.dncInserted)) ↔
      (phone, true) ∈ rs.map fun r => (r.tn, isDncCandidate p.noDataPolicy r) := by
    rw [h.flagged]
  simpa using hmem

theorem writeResults_spec {table table' : List DncRow} {st : WriteState}
    (hcloses : ∀ r ∈ candidates p, (candidateNumber p r).closes = true)
    (hout : writeResults env p table = some (table', st)) :
    Tallied p p.results st ∧ table' = insertIgnore env.coll table
      ((candidates p).map fun r => reassignedRow p.tenantId (storedPhone r.tn)) := by
  have htally : Tallied p p.results
      (p.results.foldl (writeResult env p) ⟨0, 0, 0, 0, 0, [], [], []⟩) := by
    have hstart : Tallied p [] ⟨0, 0, 0, 0, 0, [], [], []⟩ := ⟨rfl, rfl, rfl⟩
    simpa using hstart.foldl p.results
  rw [writeResults] at hout
  generalize p.results.foldl (writeResult env p) ⟨0, 0, 0, 0, 0, [], [], []⟩ = st' at hout htally
  have hnumbers : st'.dncNumbers = (candidates p).map (candidateNumber p) := htally.numbers
  have hall : st'.dncNumbers.all DncNumber.closes = true := by
    simpa [hnumbers] using hcloses
  split at hout
  · obtain ⟨t, ht, hupdate⟩ := Option.bind_eq_some_iff.1 hout
    split at hupdate
    · cases hupdate
      refine ⟨htally, ?_⟩
      by_cases hnil : st.dncNumbers = []
      · have hnone : candidates p = [] := by simpa [hnil] using hnumbers
        rw [if_pos hnil] at ht
        rw [hnone]
        exact (Option.some.inj ht).symm
      · rw [if_neg hnil, insertNumbers, if_pos hall] at ht
        split at ht
        · rw [← Option.some.inj ht, hnumbers, List.map_map]
          rfl
        · exact absurd ht (by simp)
    · exact absurd hupdate (by simp)
  · exact absurd hout (by simp)

theorem key_reassignedRow_inj {coll : String → String} {tenantId : Int} {phone phone' : String}
    (h : (reassignedRow tenantId phone).key coll = (reassignedRow tenantId phone').key coll) :
    phone = phone' := by
  simp only [DncRow.key, reassignedRow, Prod.mk.injEq] at h
  exact h.2.1

theorem hasLiveRow_iff {coll : String → String} {table : List DncRow} {now tenantId : Int}
    {phones : List String} {phone : String} :
    HasLiveRow (insertIgnore coll table (phones.map (reassignedRow tenantId))) now tenantId phone ↔
      HasLiveRow table now tenantId phone ∨
        phone ∈ phones ∧ (reassignedRow tenantId phone).key coll ∉ table.map (DncRow.key coll) := by
  have hinj : ∀ a b, (reassignedRow tenantId a).key coll = (reassignedRow tenantId b).key coll →
      a = b := fun _ _ => key_reassignedRow_inj
  constructor
  · rintro ⟨r, hr, htenant, hphone, hlive⟩
    rcases (mem_insertIgnore_map hinj).1 hr with hr | ⟨q, hq, rfl, hk⟩
    · exact Or.inl ⟨r, hr, htenant, hphone, hlive⟩
    · have hqp : q = phone := hphone
      exact Or.inr ⟨hqp ▸ hq, hqp ▸ hk⟩
  · rintro (⟨r, hr, hrest⟩ | ⟨hp, hk⟩)
    · exact ⟨r, mem_insertIgnore_of_mem hr, hrest⟩
    · have hnew := (mem_insertIgnore_map hinj).2 (Or.inr ⟨phone, hp, rfl, hk⟩)
      exact ⟨reassignedRow tenantId phone, hnew, rfl, rfl, rfl⟩

variable {V : Type*} {c : BloomClient V} {now : Int} {campaignID leadState : String}

/-- The rows of the scrub are none that the check asks for. -/
theorem not_listedRow_reassigned {coll : String → String} {phone phone' : String} :
    ¬ ListedRow coll now (dialRequest p phone campaignID leadState)
      (reassignedRow p.tenantId phone') := by
  rintro ⟨hsource, -⟩
  simp [dialRequest, allSources, reassignedRow, reassigned] at hsource

theorem mem_positiveSources_of_reply {req : CheckRequest} {s : Source} (hs : s ∈ req.sources)
    (hreply : c.replyFor req s = some (.int 1)) : s ∈ positiveSources c req := by
  refine mem_positiveSources.2 ⟨hs, .int 1, hreply, ?_⟩
  simp [BloomClient.hit, BloomClient.cmdInt]

theorem check_reassigned_iff {coll : String → String} {table : List DncRow} {phones : List String}
    {phone : String}
    (hbloom : BloomAnswers coll c now (dialRequest p phone campaignID leadState) table) :
    (check coll c (some (insertIgnore coll table (phones.map (reassignedRow p.tenantId)))) now
        (dialRequest p phone campaignID leadState)).isDNC = true ↔
      e164RE phone = false ∨
        ∃ r ∈ table, ListedRow coll now (dialRequest p phone campaignID leadState) r := by
  rw [check_isDNC_iff]
  refine or_congr Iff.rfl ?_
  constructor
  · rintro ⟨r, hr, hlisted, -⟩
    rcases mem_of_mem_insertIgnore hr with hr | hr
    · exact ⟨r, hr, hlisted⟩
    · obtain ⟨q, -, rfl⟩ := List.mem_map.1 hr
      exact absurd hlisted not_listedRow_reassigned
  · rintro ⟨r, hr, hlisted⟩
    have hpos := mem_positiveSources_of_reply hlisted.1 (hbloom r hr hlisted)
    exact ⟨r, mem_insertIgnore_of_mem hr, hlisted, hpos⟩

/-- Every phone that the scrub counts as inserted has a live row and is refused by the
dialer exactly when each of them had a row of the tenant that is live, or none under the key
under which it is stored, and is malformed or listed by another source already. -/
theorem reassigned_blocked_iff {table table' : List DncRow} {st : WriteState}
    (hcloses : ∀ r ∈ candidates p, (candidateNumber p r).closes = true)
    (hout : writeResults env p table = some (table', st))
    (hbloom : ∀ phone,
      BloomAnswers env.coll c now (dialRequest p phone campaignID leadState) table) :
    (∀ row ∈ st.lookupRows, row.dncInserted = true →
      HasLiveRow table' now p.tenantId row.phoneE164 ∧
        (check env.coll c (some table') now
          (dialRequest p row.phoneE164 campaignID leadState)).isDNC = true) ↔
      ∀ r ∈ candidates p,
        (HasLiveRow table now p.tenantId r.tn ∨
          r.tn ∈ (candidates p).map (fun m => storedPhone m.tn) ∧
            (reassignedRow p.tenantId r.tn).key env.coll ∉ table.map (DncRow.key env.coll)) ∧
        (e164RE r.tn = false ∨
          ∃ x ∈ table, ListedRow env.coll now (dialRequest p r.tn campaignID leadState) x) := by
  obtain ⟨htally, rfl⟩ := writeResults_spec hcloses hout
  have hrows : (candidates p).map (fun r => reassignedRow p.tenantId (storedPhone r.tn)) =
      ((candidates p).map fun m => storedPhone m.tn).map (reassignedRow p.tenantId) := by
    rw [List.map_map]
    rfl
  rw [hrows]
  constructor
  · intro h r hr
    obtain ⟨hmem, hcand⟩ := List.mem_filter.1 hr
    obtain ⟨row, hrow, hphone, hflag⟩ := (htally.flagged_iff r.tn).2 ⟨r, hmem, rfl, hcand⟩
    obtain ⟨hlive, hdnc⟩ := h row hrow hflag
    rw [hphone] at hlive hdnc
    exact ⟨hasLiveRow_iff.1 hlive, (check_reassigned_iff (hbloom r.tn)).1 hdnc⟩
  · intro h row hrow hflag
    obtain ⟨r, hr, hphone, hcand⟩ := (htally.flagged_iff row.phoneE164).1 ⟨row, hrow, rfl, hflag⟩
    obtain ⟨hlive, hlisted⟩ := h r (List.mem_filter.2 ⟨hr, hcand⟩)
    rw [← hphone]
    exact ⟨hasLiveRow_iff.2 hlive, (check_reassigned_iff (hbloom r.tn)).2 hlisted⟩

/-- Every command of the scrub succeeds; two dates are read. -/
def plainEnv : ScrubEnv where
  coll := id
  clock _ := 1778702400000
  parseDate s := if s = "2025-01-15" then some 1736899200000 else some 1778702400000
  audit _ := true
  createMany _ := true
  executeRaw := true
  broken _ _ := none
  update := true

def oneReassigned : ScrubBatch :=
  ⟨1, "SCRUB01", [⟨"+12025551110", .yes, some "2025-01-15", "2026-05-13T20:00:00.000Z"⟩],
    [⟨"+12025551110", 1735689600000, .pewc⟩], .safe⟩

def oneLookup : LookupRow :=
  ⟨1, "SCRUB01", "+12025551110", 1735689600000, .pewc, .yes, some (some 1736899200000),
    some 1778702400000, true⟩

def oneWritten : WriteState :=
  ⟨1, 0, 0, 0, 1, [oneLookup], [⟨"+12025551110", some "2025-01-15", "2025-01-01"⟩],
    [⟨1, "rnd.number.flagged_reassigned", "+1202555****", some "2025-01-15", "SCRUB01", .pewc⟩]⟩

def federalListing : DncRow := ⟨0, "+12025551110", .federal, "__", "__GLOBAL__", none⟩

def answering (n : Int) : BloomClient Unit := ⟨fun _ _ _ => .int n, fun _ => none⟩

theorem listed_reassigned_blocked :
    HasLiveRow [federalListing, reassignedRow 1 "+12025551110"] 0 1 "+12025551110" ∧
      (check id (answering 1) (some [federalListing, reassignedRow 1 "+12025551110"]) 0
        (dialRequest oneReassigned "+12025551110" "" "")).isDNC = true := by
  have hcloses : ∀ r ∈ candidates oneReassigned, (candidateNumber oneReassigned r).closes = true := by
    decide +kernel
  have hout : writeResults plainEnv oneReassigned [federalListing] =
      some ([federalListing, reassignedRow 1 "+12025551110"], oneWritten) := by
    decide +kernel
  have hbloom : ∀ phone, BloomAnswers plainEnv.coll (answering 1) 0
      (dialRequest oneReassigned phone "" "") [federalListing] := by
    intro phone r hr _
    rw [List.mem_singleton.1 hr]
    rfl
  refine (reassigned_blocked_iff hcloses hout hbloom).2 ?_ oneLookup (by simp [oneWritten]) rfl
  intro r hr
  have htn : r.tn = "+12025551110" := by
    have hall : ∀ r ∈ candidates oneReassigned, r.tn = "+12025551110" := by decide +kernel
    exact hall r hr
  rw [htn]
  refine ⟨Or.inr ⟨by decide +kernel, by decide +kernel⟩, Or.inr ⟨federalListing, by simp, ?_⟩⟩
  rw [ListedRow]
  decide +kernel

theorem reassigned_dialled :
    ∃ table' st, writeResults plainEnv oneReassigned [] = some (table', st) ∧
      (∀ phone, BloomAnswers plainEnv.coll (answering 0) 0 (dialRequest oneReassigned phone "" "")
        table') ∧
      ¬ ∀ row ∈ st.lookupRows, row.dncInserted = true →
        HasLiveRow table' 0 oneReassigned.tenantId row.phoneE164 ∧
          (check plainEnv.coll (answering 0) (some table') 0
            (dialRequest oneReassigned row.phoneE164 "" "")).isDNC = true := by
  refine ⟨[reassignedRow 1 "+12025551110"], oneWritten, by decide +kernel, ?_, ?_⟩
  · intro phone r hr hlisted
    rw [List.mem_singleton.1 hr] at hlisted
    exact absurd hlisted not_listedRow_reassigned
  · intro h
    have hdnc := (h oneLookup (by simp [oneWritten]) rfl).2
    exact absurd hdnc (by decide +kernel)

end

end Dnc

end Vici2
