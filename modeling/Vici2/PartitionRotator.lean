import Mathlib.Data.List.Sort
import Vici2.JsDate

/-! The partition rotator: the next monthly partition is added, and partitions
older than the retention are dropped once the gate lets them go. -/

namespace Vici2

namespace Partition

open IsoTime JsDate

structure TableConfig where
  table : String
  partitionColumn : String
  retentionMonths : Int
  requireAttestation : Bool
  deriving DecidableEq, Repr

def ninetyDaysAsMonths : Int := 3

def tableRegistry : List TableConfig :=
  [⟨"call_log", "call_started", 48, false⟩,
    ⟨"recording_log", "start_time", 84, false⟩,
    ⟨"audit_log", "ts", 84, true⟩,
    ⟨"agent_log", "event_at", 13, false⟩,
    ⟨"drop_log", "dropped_at", 84, false⟩,
    ⟨"call_window_audit", "created_at", 48, true⟩,
    ⟨"dnc_sync_log", "started_at", 84, true⟩,
    ⟨"originate_audit", "originated_at", 84, true⟩,
    ⟨"drop_gate_transition_log", "created_at", 84, false⟩,
    ⟨"import_errors", "created_at", ninetyDaysAsMonths, false⟩,
    ⟨"queue_calls", "enqueued_at", ninetyDaysAsMonths, false⟩,
    ⟨"queue_log", "created_at", ninetyDaysAsMonths, false⟩,
    ⟨"consent_log", "created_at", 84, true⟩]

/-- A row of `INFORMATION_SCHEMA.PARTITIONS`. -/
structure SchemaPartition where
  name : String
  description : String
  deriving DecidableEq, Repr

/-- A row of `audit_attestation`, as far as the gate reads it. -/
structure AttestationRow where
  tenantId : Int
  tableName : String
  windowDate : Int
  merkleRoot : Option String
  s3Key : Option String
  windowDate_range : 0 ≤ (civil windowDate).1 ∧ (civil windowDate).1 ≤ 9999

inductive PartitionAction
  | add
  | addSkipped
  | addError
  | drop
  | dropSkippedAttestation
  | dropSkippedDisk
  | dropSkippedTableMissing
  | dropError
  deriving DecidableEq, Repr

structure PartitionResult where
  table : String
  partition : String
  action : PartitionAction
  dryRun : Bool
  boundaryDate : Option (List Char)
  reason : Option String
  error : Option String
  deriving DecidableEq, Repr

inductive Ddl
  | addPartition (table name : String) (lessThan : List Char)
  | dropPartition (table name : String)
  deriving DecidableEq, Repr

/-- What the database, the disk and the engine answer while one table is rotated.
Partitions are read at the start and again after an addition; a query or a statement
that fails gives its message. -/
structure Session where
  partitions : Option (List SchemaPartition)
  refreshed : Option (List SchemaPartition)
  today : Int
  attestations : Except String (List AttestationRow)
  diskFree : String → Except String Unit
  execute : Ddl → Except String Unit
  fallback : List Char → Option Int

def firstOfMonth (y m : Int) : Option Int := utc y (m - 1) 1

def addMonths (d : Option Int) (months : Int) : Option Int :=
  d.bind fun t => setUTCMonth t (month t + months)

def partitionNameFromBoundary (boundary : Int) : String :=
  "p_" ++ toString (year boundary) ++ "_" ++
    String.ofList (fixedDigits 2 (month boundary + 1).toNat)

def whiteSpace : List Nat :=
  [0x9, 0xA, 0xB, 0xC, 0xD, 0x20, 0xA0, 0x1680, 0x2000, 0x2001, 0x2002, 0x2003, 0x2004, 0x2005,
    0x2006, 0x2007, 0x2008, 0x2009, 0x200A, 0x2028, 0x2029, 0x202F, 0x205F, 0x3000, 0xFEFF]

def trim (text : List Char) : List Char :=
  let blank := fun c : Char => decide (c.toNat ∈ whiteSpace)
  ((text.dropWhile blank).reverse.dropWhile blank).reverse

def stripLeadingQuote : List Char → List Char
  | [] => []
  | c :: text => if c.toNat = 39 then text else c :: text

def stripQuotes (text : List Char) : List Char :=
  (stripLeadingQuote (stripLeadingQuote text).reverse).reverse

def parsePartitionBoundary (fallback : List Char → Option Int) (desc : String) : Option Int :=
  let clean := trim (stripQuotes desc.toList)
  if clean.map Char.toUpper = "MAXVALUE".toList ∨ clean = [] then none
  else parseMidnight fallback clean

def namedMonth : List Char → Bool
  | ['p', '_', a, b, c, d, '_', e, f] => [a, b, c, d, e, f].all Char.isDigit
  | _ => false

/-- Order of texts, character by character. -/
def textLe : List Char → List Char → Bool
  | [], _ => true
  | _ :: _, [] => false
  | a :: s, b :: t => a.toNat < b.toNat || (a.toNat == b.toNat && textLe s t)

def namedPartitions (partitions : List SchemaPartition) : List SchemaPartition :=
  (partitions.filter fun p => namedMonth p.name.toList).insertionSort
    fun p q => textLe p.name.toList q.name.toList

def invalidTime : String := "Invalid time value"

def addNextPartition (s : Session) (config : TableConfig) (partitions : List SchemaPartition)
    (dryRun : Bool) : Except String (PartitionResult × List Ddl) :=
  let result (name : String) (action : PartitionAction) (boundary : Option (List Char))
      (reason error : Option String) : PartitionResult :=
    ⟨config.table, name, action, dryRun, boundary, reason, error⟩
  let add (start : Option Int) : Except String (PartitionResult × List Ddl) :=
    match start, addMonths start 1 with
    | some start, some next =>
      let name := partitionNameFromBoundary start
      let boundary := isoDate next
      if partitions.any fun p => p.name = name then
        .ok (result name .addSkipped (some boundary) (some "already_exists") none, [])
      else if dryRun then .ok (result name .add (some boundary) none none, [])
      else
        let sql := Ddl.addPartition config.table name boundary
        match s.execute sql with
        | .error e => .ok (result name .addError (some boundary) none (some e), [])
        | .ok () => .ok (result name .add (some boundary) none none, [sql])
    | _, _ => .error invalidTime
  match (namedPartitions partitions).getLast? with
  | none => add (firstOfMonth (year s.today) (month s.today + 1))
  | some newest =>
    match parsePartitionBoundary s.fallback newest.description with
    | none => .ok (result "(unknown)" .addError none none
        (some ("Cannot parse PARTITION_DESCRIPTION: " ++ newest.description)), [])
    | some newestUpperBound => add (some newestUpperBound)

def lastDayOfWindow (fallback : List Char → Option Int) (partitionUpperBound : List Char) :
    Except String (List Char) :=
  match (parseMidnight fallback partitionUpperBound).bind fun d => setUTCDate d (date d - 1) with
  | some d => .ok (isoDate d)
  | none => .error invalidTime

def AttestationRow.matches (a : AttestationRow) (tableName : String) (windowDate : List Char) : Prop :=
  a.tableName = tableName ∧ dateText a.windowDate = windowDate ∧ a.merkleRoot ≠ none ∧ a.s3Key ≠ none

instance (a : AttestationRow) (tableName : String) (windowDate : List Char) :
    Decidable (a.matches tableName windowDate) := inferInstanceAs (Decidable (_ ∧ _))

def includes (needle : List Char) : List Char → Bool
  | [] => needle.isEmpty
  | c :: text => needle.isPrefixOf (c :: text) || includes needle text

def checkAttestation (attestations : Except String (List AttestationRow)) (tableName : String)
    (windowDate : List Char) : Except String Unit :=
  match attestations with
  | .ok rows =>
    if 0 < rows.countP fun a => a.matches tableName windowDate then .ok ()
    else .error "attestation_absent"
  | .error msg =>
    if includes "doesn't exist".toList msg.toList ∨ includes "ER_NO_SUCH_TABLE".toList msg.toList then
      .error "attestation_table_missing"
    else .error "db_error"

/-- The gate in front of a drop; a table that needs no attestation passes. -/
def attestationGate (s : Session) (config : TableConfig) (boundaryDate : List Char) :
    Except String (Except String Unit) :=
  if config.requireAttestation then
    match lastDayOfWindow s.fallback boundaryDate with
    | .error e => .error e
    | .ok windowLastDay => .ok (checkAttestation s.attestations config.table windowLastDay)
  else .ok (.ok ())

def retentionCutoff (now retentionMonths : Int) : Option Int :=
  addMonths (firstOfMonth (year now) (month now + 1)) (-retentionMonths)

/-- `upperBound > cutoff`; the comparison with an invalid date is false. -/
def afterCutoff (upperBound : Int) : Option Int → Bool
  | none => false
  | some cutoff => cutoff < upperBound

def dropPartition (s : Session) (config : TableConfig) (cutoff : Option Int) (dryRun : Bool)
    (p : SchemaPartition) : Except String (List PartitionResult × List Ddl) :=
  match parsePartitionBoundary s.fallback p.description with
  | none => .ok ([], [])
  | some upperBound =>
    if afterCutoff upperBound cutoff then .ok ([], [])
    else
      let boundaryDate := isoDate upperBound
      let result (action : PartitionAction) (reason error : Option String) : PartitionResult :=
        ⟨config.table, p.name, action, dryRun, some boundaryDate, reason, error⟩
      match attestationGate s config boundaryDate with
      | .error e => .error e
      | .ok (.error reason) => .ok ([result .dropSkippedAttestation (some reason) none], [])
      | .ok (.ok ()) =>
        match s.diskFree p.name with
        | .error reason => .ok ([result .dropSkippedDisk (some reason) none], [])
        | .ok () =>
          if dryRun then .ok ([result .drop none none], [])
          else
            let sql := Ddl.dropPartition config.table p.name
            match s.execute sql with
            | .error e => .ok ([result .dropError none (some e)], [])
            | .ok () => .ok ([result .drop none none], [sql])

/-- The loop over the partitions. An exception ends it; what was dropped before it
stays dropped. -/
def dropPartitions (s : Session) (config : TableConfig) (cutoff : Option Int) (dryRun : Bool) :
    List SchemaPartition → Except String (List PartitionResult) × List Ddl
  | [] => (.ok [], [])
  | p :: ps =>
    match dropPartition s config cutoff dryRun p with
    | .error e => (.error e, [])
    | .ok (results, ddl) =>
      let rest := dropPartitions s config cutoff dryRun ps
      (rest.1.map (results ++ ·), ddl ++ rest.2)

def dropExpiredPartitions (s : Session) (config : TableConfig) (partitions : List SchemaPartition)
    (now : Int) (dryRun : Bool) : Except String (List PartitionResult) × List Ddl :=
  dropPartitions s config (retentionCutoff now config.retentionMonths) dryRun
    (namedPartitions partitions)

def fetchPartitions (rows : Option (List SchemaPartition)) : Option (List SchemaPartition) :=
  rows.filter fun rows => rows ≠ []

def rotateTable (s : Session) (config : TableConfig) (now : Int) (dryRun : Bool) :
    List PartitionResult × List Ddl :=
  let unexpected (e : String) : PartitionResult :=
    ⟨config.table, "(unknown)", .addError, dryRun, none, none, some e⟩
  match fetchPartitions s.partitions with
  | none =>
    ([⟨config.table, "(none)", .dropSkippedTableMissing, dryRun, none,
      some "table_not_in_information_schema", none⟩], [])
  | some partitions =>
    match addNextPartition s config partitions dryRun with
    | .error e => ([unexpected e], [])
    | .ok (addResult, added) =>
      let current :=
        if addResult.action = .add then (fetchPartitions s.refreshed).getD partitions else partitions
      match dropExpiredPartitions s config current now dryRun with
      | (.error e, dropped) => ([addResult, unexpected e], added ++ dropped)
      | (.ok results, dropped) => (addResult :: results, added ++ dropped)

structure RotationSummary where
  dryRun : Bool
  results : List PartitionResult
  errors : Nat
  deriving DecidableEq, Repr

def PartitionAction.isError (action : PartitionAction) : Bool :=
  action = .addError ∨ action = .dropError

/-- `runPartitionRotation` at the time `now`, which is not a date when the override
is not one. -/
def runPartitionRotation (registry : List TableConfig) (db : String → Session) (now : Option Int)
    (dryRun : Bool) (only : Option (List String)) : Except String (RotationSummary × List Ddl) :=
  let tables : List TableConfig := match only with
    | some names => registry.filter fun config => config.table ∈ names
    | none => registry
  match now with
  | none => .error invalidTime
  | some now =>
    let runs := tables.map fun config => rotateTable (db config.table) config now dryRun
    let results := runs.flatMap Prod.fst
    .ok (⟨dryRun, results, results.countP fun r => r.action.isError⟩, runs.flatMap Prod.snd)

end Partition

end Vici2
