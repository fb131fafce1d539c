import Vici2.AuditCanonical
import Vici2.FederalDelta
import Vici2.Streams

/-! The lead import: rows of a file are normalised and validated, deduplicated within the
file, scrubbed against the DNC list and the timezone tables, and cut into batches for the
writer. The errors of all stages go to one collector. -/

namespace Vici2

namespace LeadImport

open Audit (utf16)
open Dnc (jsTrim)

inductive ErrorCode
  | invalidPhone
  | missingRequiredField
  | fieldCountMismatch
  | customDataSchemaFail
  | invalidState
  | invalidDate
  | duplicateInFile
  | duplicateInList
  | duplicateInTenant
  | dncBlocked
  | dncWarn
  | noTimezone
  | tzBlockedWarn
  | maxRecordSizeExceeded
  | headerMismatch
  | unsupportedEncoding
  | maxErrorsExceeded
  | dbTransient
  deriving DecidableEq, Repr

structure Info where
  lines : Nat
  records : Nat
  deriving DecidableEq, Repr

structure RowError where
  code : ErrorCode
  message : String
  sourceLine : Nat
  sourceRecord : Nat
  rawRecord : List String
  deriving DecidableEq, Repr

structure MappedRow where
  mapped : List (String × String)
  rawRecord : List String
  info : Info
  deriving DecidableEq, Repr

/-- Fields that are cut to a length are kept in UTF-16 units. -/
structure NormalizedLead (ν : Type) where
  phoneE164 : String
  phoneAlt : Option String
  phoneAlt2 : Option String
  firstName : Option String
  lastName : Option String
  middleInitial : Option (List Nat)
  title : Option (List Nat)
  address1 : Option (List Nat)
  address2 : Option (List Nat)
  city : Option (List Nat)
  state : Option String
  postalCode : Option (List Nat)
  countryCode : List Nat
  email : Option (List Nat)
  dateOfBirth : Option String
  gender : Char
  comments : Option String
  rank : ν
  vendorLeadCode : Option (List Nat)
  sourceId : Option (List Nat)
  status : String
  tzBlocked : Bool
  dncBlocked : Bool
  customData : List (String × String)
  deriving DecidableEq, Repr

structure NormalizedRow (ν : Type) where
  lead : Option (NormalizedLead ν)
  rawRecord : List String
  info : Info
  errors : List RowError

structure ValidRow (ν : Type) where
  lead : NormalizedLead ν
  rawRecord : List String
  info : Info
  deriving DecidableEq, Repr

structure Batch (ν : Type) where
  rows : List (ValidRow ν)
  batchIndex : Nat
  deriving DecidableEq, Repr

/-- The libraries and the Unicode tables the stages call: the E.164 number of a text that
is a valid phone number of the country, the ISO date of a text in a format, case mapping,
and `parseInt` without its `NaN`. -/
structure Runtime (ν : Type) where
  parsePhoneNumber : String → String → Option String
  dateFnsParse : String → String → Option String
  toUpperCase : String → String
  toLowerCase : String → String
  parseInt : String → Option ν
  zero : ν

def usStates : List String :=
  ["AL", "AK", "AZ", "AR", "CA", "CO", "CT", "DE", "FL", "GA", "HI", "ID", "IL", "IN", "IA",
    "KS", "KY", "LA", "ME", "MD", "MA", "MI", "MN", "MS", "MO", "MT", "NE", "NV", "NH", "NJ",
    "NM", "NY", "NC", "ND", "OH", "OK", "OR", "PA", "RI", "SC", "SD", "TN", "TX", "UT", "VT",
    "VA", "WA", "WV", "WI", "WY", "DC", "PR", "VI", "GU", "AS", "MP"]

structure NormalizeValidateOptions where
  defaultCountry : Option String
  defaultStatus : Option String

def trim (s : String) : String := String.ofList (jsTrim s.toList)

def orUndefined (s : String) : Option String := if s = "" then none else some s

def unitsOrUndefined (units : List Nat) : Option (List Nat) :=
  if units = [] then none else some units

/-- `/^\d{4}-\d{2}-\d{2}$/` -/
def isIsoDate (s : String) : Bool :=
  match s.toList with
  | [a, b, c, d, '-', e, f, '-', g, h] => [a, b, c, d, e, f, g, h].all Char.isDigit
  | _ => false

def makeError (row : MappedRow) (code : ErrorCode) (message : String) : RowError :=
  ⟨code, message, row.info.lines, row.info.records, row.rawRecord⟩

section Normalize

variable {ν : Type} (J : Runtime ν) (opts : NormalizeValidateOptions)

def altPhone (row : MappedRow) (field : String) : Option String :=
  match row.mapped.lookup field with
  | none => none
  | some raw =>
    if trim raw = "" then none
    else some ((J.parsePhoneNumber raw (opts.defaultCountry.getD "US")).getD raw)

def stateOf (row : MappedRow) : Option String :=
  ((row.mapped.lookup "state").map fun s => trim (J.toUpperCase s)).bind orUndefined

def stateErrors (row : MappedRow) : List RowError :=
  match stateOf J row with
  | none => []
  | some state =>
    if state ∈ usStates then []
    else [makeError row .invalidState ("\"" ++ state ++ "\" is not a valid US state code")]

/-- The date of birth, or that it cannot be read. -/
def dateOf (row : MappedRow) : Except String (Option String) :=
  match row.mapped.lookup "date_of_birth" with
  | none => .ok none
  | some raw =>
    if trim raw = "" then .ok none
    else if isIsoDate (trim raw) = true then .ok (some (trim raw))
    else
      match ["MM/dd/yyyy", "M/d/yyyy", "dd-MM-yyyy", "yyyy/MM/dd"].findSome? fun fmt =>
        J.dateFnsParse (trim raw) fmt with
      | some date => .ok (some date)
      | none => .error raw

def dateErrors (row : MappedRow) : List RowError :=
  match dateOf J row with
  | .ok _ => []
  | .error raw =>
    [makeError row .invalidDate ("Cannot parse date_of_birth: \"" ++ raw ++ "\"")]

def genderOf (row : MappedRow) : Char :=
  match (row.mapped.lookup "gender").map fun g => trim (J.toUpperCase g) with
  | some g => if g = "M" ∨ g = "MALE" then 'M' else if g = "F" ∨ g = "FEMALE" then 'F' else 'U'
  | none => 'U'

def rankOf (row : MappedRow) : ν :=
  match row.mapped.lookup "rank" with
  | none => J.zero
  | some raw => if raw = "" then J.zero else (J.parseInt raw).getD J.zero

def customDataOf (row : MappedRow) : List (String × String) :=
  row.mapped.filterMap fun (k, v) =>
    if "custom.".toList.isPrefixOf k.toList = true then some (String.ofList (k.toList.drop 7), v)
    else none

def trimmed (row : MappedRow) (field : String) : Option String :=
  ((row.mapped.lookup field).map trim).bind orUndefined

def cut (row : MappedRow) (field : String) (n : Nat) : Option (List Nat) :=
  ((row.mapped.lookup field).map fun s => (utf16 (trim s)).take n).bind unitsOrUndefined

def leadOf (row : MappedRow) (phoneE164 : String) : NormalizedLead ν where
  phoneE164 := phoneE164
  phoneAlt := altPhone J opts row "phone_alt"
  phoneAlt2 := altPhone J opts row "phone_alt2"
  firstName := trimmed row "first_name"
  lastName := trimmed row "last_name"
  middleInitial := cut row "middle_initial" 4
  title := cut row "title" 8
  address1 := cut row "address1" 128
  address2 := cut row "address2" 128
  city := cut row "city" 64
  state := stateOf J row
  postalCode := cut row "postal_code" 16
  countryCode :=
    (((row.mapped.lookup "country_code").map fun s =>
      (utf16 (J.toUpperCase (trim s))).take 2).bind unitsOrUndefined).getD
      (utf16 ((opts.defaultCountry.bind orUndefined).getD "US"))
  email := ((row.mapped.lookup "email").map fun s =>
    (utf16 (J.toLowerCase (trim s))).take 128).bind unitsOrUndefined
  dateOfBirth :=
    match dateOf J row with
    | .ok date => date
    | .error _ => none
  gender := genderOf J row
  comments := trimmed row "comments"
  rank := rankOf J row
  vendorLeadCode := cut row "vendor_lead_code" 64
  sourceId := cut row "source_id" 64
  status := opts.defaultStatus.getD "NEW"
  tzBlocked := false
  dncBlocked := false
  customData := customDataOf row

/-- `_transform` of the normalise and validate stage; a lead that carries an error is
dropped further on. -/
def normalizeValidate (row : MappedRow) : NormalizedRow ν :=
  let rawPhone := (row.mapped.lookup "phone_e164").getD ""
  if trim rawPhone = "" then
    ⟨none, row.rawRecord, row.info,
      [makeError row .missingRequiredField "phone_e164 is required"]⟩
  else
    match J.parsePhoneNumber rawPhone (opts.defaultCountry.getD "US") with
    | none =>
      ⟨none, row.rawRecord, row.info,
        [makeError row .invalidPhone ("E.164 parse failed: \"" ++ rawPhone ++ "\"")]⟩
    | some phoneE164 =>
      let errors := stateErrors J row ++ dateErrors J row
      ⟨if errors = [] then some (leadOf J opts row phoneE164) else none, row.rawRecord, row.info,
        errors⟩

/-- A call that hands row errors over is an event of a stage. -/
def normalizeStage : Stage Unit MappedRow (NormalizedRow ν) (List RowError) where
  init := ()
  transform _ row := ((), [normalizeValidate J opts row], [])
  flush _ := ([], [])

end Normalize

section Dedup

variable {ν : Type}

def duplicateError (row : NormalizedRow ν) (phone : String) (prevLine : Nat) : RowError :=
  ⟨.duplicateInFile,
    "Phone " ++ phone ++ " already on line " ++ toString prevLine ++ " of this file",
    row.info.lines, row.info.records, row.rawRecord⟩

/-- The state is the map of the phones seen to the lines they stood on. -/
def inFileDedup :
    Stage (List (String × Nat)) (NormalizedRow ν) (ValidRow ν) (List RowError) where
  init := []
  transform seen row :=
    match row.lead with
    | none => (seen, [], [row.errors])
    | some lead =>
      match seen.lookup lead.phoneE164 with
      | some prevLine => (seen, [], [[duplicateError row lead.phoneE164 prevLine]])
      | none =>
        (seen ++ [(lead.phoneE164, row.info.lines)], [⟨lead, row.rawRecord, row.info⟩], [])
  flush _ := ([], [])

end Dedup

inductive Policy
  | skip
  | mark
  | proceed
  deriving DecidableEq, Repr

inductive TzConfidence
  | nxx
  | npa
  | stateDefault
  | none
  deriving DecidableEq, Repr

structure DncResult where
  isDnc : Bool
  sources : List String
  deriving DecidableEq, Repr

/-- What Redis and MySQL answer to one check: the results of the pipeline, where there is
one and it does not fail, with their errors, and the rows of the query. -/
structure DncReply where
  bloom : Option (List (Bool × Nat))
  rows : List String → List (String × String)

/-- What MySQL answers to the two queries for one row. -/
structure TzReply where
  codes : String → String → List (String × String)
  states : String → List String

/-- The answers during one flush. -/
structure ScrubReply where
  dnc : DncReply
  tz : String → TzReply

structure ScrubOptions where
  dncPolicy : Policy
  tzPolicy : Policy

/-- Three filters are asked for every phone. -/
def bloomPositives (reply : DncReply) (phones : List String) : List String :=
  match reply.bloom with
  | none => phones
  | some results =>
    (phones.zipIdx.filter fun (_, i) => (List.range 3).any fun ki =>
      match results[i * 3 + ki]? with
      | some (failed, n) => failed || n == 1
      | none => false).map Prod.fst

def checkDnc (reply : DncReply) (phones : List String) (phone : String) : Option DncResult :=
  let positives := bloomPositives reply phones
  let rows := if positives = [] then [] else (reply.rows positives).filter fun r => r.1 == phone
  if phone ∈ phones then
    some ⟨!rows.isEmpty,
      rows.foldl (fun sources r => if r.2 ∈ sources then sources else sources ++ [r.2]) []⟩
  else none

def resolveTimezone (reply : TzReply) (phone : String) (state : Option String) : TzConfidence :=
  let digits := phone.toList.filter Char.isDigit
  if digits.length < 10 then .none
  else
    let last := digits.drop (digits.length - 10)
    match reply.codes (String.ofList (last.take 3)) (String.ofList ((last.drop 3).take 3)) with
    | (_, confidence) :: _ => if confidence = "NXX" then .nxx else .npa
    | [] =>
      match state.bind orUndefined with
      | none => .none
      | some state => if reply.states state = [] then .none else .stateDefault

section Scrub

variable {ν : Type}

def ValidRow.error (row : ValidRow ν) (code : ErrorCode) (message : String) : RowError :=
  ⟨code, message, row.info.lines, row.info.records, row.rawRecord⟩

/-- The timezone part of the loop in `_flushBuffer`, after the calls made so far. -/
def scrubTz (opts : ScrubOptions) (reply : TzReply) (row : ValidRow ν)
    (calls : List (List RowError)) : Option (ValidRow ν) × List (List RowError) :=
  if resolveTimezone reply row.lead.phoneE164 row.lead.state = .none then
    match opts.tzPolicy with
    | .skip =>
      (none, calls ++ [[row.error .noTimezone "D03 returned NONE confidence; tz_policy=skip"]])
    | .mark =>
      (some { row with lead := { row.lead with tzBlocked := true } },
        calls ++ [[row.error .tzBlockedWarn "No timezone resolved; tz_blocked=true"]])
    | .proceed => (some row, calls)
  else (some row, calls)

def scrubRow (opts : ScrubOptions) (dnc : DncResult) (reply : TzReply) (row : ValidRow ν) :
    Option (ValidRow ν) × List (List RowError) :=
  let sources := ", ".intercalate dnc.sources
  if dnc.isDnc = true then
    match opts.dncPolicy with
    | .skip => (none, [[row.error .dncBlocked (sources ++ " DNC")]])
    | .mark =>
      scrubTz opts reply { row with lead := { row.lead with dncBlocked := true, status := "DNC" } }
        [[row.error .dncWarn ("DNC match (mark mode): " ++ sources)]]
    | .proceed =>
      scrubTz opts reply row [[row.error .dncWarn ("DNC match (proceed mode): " ++ sources)]]
  else scrubTz opts reply row []

/-- What becomes of each row of a full buffer. -/
def scrubBatch (opts : ScrubOptions) (reply : ScrubReply) (batch : List (ValidRow ν)) :
    List (Option (ValidRow ν) × List (List RowError)) :=
  let phones := batch.map (·.lead.phoneE164)
  batch.map fun row =>
    scrubRow opts ((checkDnc reply.dnc phones row.lead.phoneE164).getD ⟨false, []⟩)
      (reply.tz row.lead.phoneE164) row

def flushBuffer (opts : ScrubOptions) (reply : ScrubReply) (batch : List (ValidRow ν)) :
    List (ValidRow ν) × List (List RowError) :=
  ((scrubBatch opts reply batch).filterMap Prod.fst, (scrubBatch opts reply batch).flatMap Prod.snd)

def dncBatchSize : Nat := 100

/-- The state is the buffer and the number of flushes behind it. -/
def dncTcpaScrub (opts : ScrubOptions) (replies : Nat → ScrubReply) :
    Stage (List (ValidRow ν) × Nat) (ValidRow ν) (ValidRow ν) (List RowError) where
  init := ([], 0)
  transform s row :=
    let buffer := s.1 ++ [row]
    if dncBatchSize ≤ buffer.length then
      (([], s.2 + 1), flushBuffer opts (replies s.2) buffer)
    else ((buffer, s.2), [], [])
  flush s := flushBuffer opts (replies s.2) s.1

/-- The state is the buffer and the index of the next batch. -/
def batcher (batchSize : Nat) :
    Stage (List (ValidRow ν) × Nat) (ValidRow ν) (Batch ν) (List RowError) where
  init := ([], 0)
  transform s row :=
    let buffer := s.1 ++ [row]
    if batchSize ≤ buffer.length then
      ((buffer.drop batchSize, s.2 + 1), [⟨buffer.take batchSize, s.2⟩], [])
    else ((buffer, s.2), [], [])
  flush s := if s.1 = [] then ([], []) else ([⟨s.1, s.2⟩], [])

end Scrub

def batchSize : Nat := 500

def maxErrors : Nat := 10000

structure ErrorsCollector where
  errors : List RowError
  errorCount : Nat
  exceeded : Bool
  byCode : ErrorCode → Nat

def ErrorsCollector.new : ErrorsCollector := ⟨[], 0, false, fun _ => 0⟩

/-- The loop of `addErrors`; it stops at the cap with an entry that says so. -/
def ErrorsCollector.addLoop (c : ErrorsCollector) : List RowError → ErrorsCollector
  | [] => c
  | err :: rest =>
    let c' : ErrorsCollector :=
      { c with
        errors := c.errors ++ [err]
        errorCount := c.errorCount + 1
        byCode := Function.update c.byCode err.code (c.byCode err.code + 1) }
    if maxErrors ≤ c'.errorCount then
      { c' with
        exceeded := true
        errors := c'.errors ++
          [⟨.maxErrorsExceeded, "Error cap of " ++ toString maxErrors ++ " reached; import aborted",
            err.sourceLine, err.sourceRecord, []⟩]
        byCode := Function.update c'.byCode .maxErrorsExceeded 1 }
    else addLoop c' rest

def ErrorsCollector.addErrors (c : ErrorsCollector) (errors : List RowError) : ErrorsCollector :=
  if c.exceeded = true then c else c.addLoop errors

def ErrorsCollector.collect (calls : List (List RowError)) : ErrorsCollector :=
  calls.foldl ErrorsCollector.addErrors .new

structure Settings where
  normalize : NormalizeValidateOptions
  scrub : ScrubOptions
  batchSize : Nat

section Pipeline

variable {ν : Type} (J : Runtime ν) (S : Settings) (replies : Nat → ScrubReply)
  (rows : List MappedRow)

def normalizedRows : List (NormalizedRow ν) := ((normalizeStage J S.normalize).run rows).1

def validRows : List (ValidRow ν) := (inFileDedup.run (normalizedRows J S rows)).1

def scrubbedRows : List (ValidRow ν) :=
  ((dncTcpaScrub S.scrub replies).run (validRows J S rows)).1

def batches : List (Batch ν) := ((batcher S.batchSize).run (scrubbedRows J S replies rows)).1

/-- The calls that hand over row errors, stage by stage. -/
def errorCalls : List (List RowError) :=
  ((normalizeStage J S.normalize).run rows).2 ++ (inFileDedup.run (normalizedRows J S rows)).2 ++
    ((dncTcpaScrub S.scrub replies).run (validRows J S rows)).2 ++
    ((batcher S.batchSize).run (scrubbedRows J S replies rows)).2

end Pipeline

end LeadImport

end Vici2
