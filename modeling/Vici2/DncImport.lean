import Vici2.FederalDelta
import Vici2.Runs

/-! The API's do-not-call writers and what its check reads back. A row is
confirmed only if the Bloom filter that the reading tenant consults has its
phone; the filter is filled by the writer, under the key the writer chooses. -/

namespace Vici2

namespace Dnc

inductive DncSource
  | federal
  | state
  | internal
  | litigator
  deriving DecidableEq, Repr

def DncSource.row : DncSource → Source
  | .federal => .federal
  | .state => .state
  | .internal => .internal
  | .litigator => .litigator

def filterKey (source : DncSource) (tenantId : Option Int) : String :=
  let t := (tenantId.map toString).getD "undefined"
  match source with
  | .federal => "bf:dnc:federal"
  | .litigator => "bf:dnc:litigator"
  | .internal => "t:" ++ t ++ ":dnc:internal:bloom"
  | .state => "t:" ++ t ++ ":dnc:state:bloom"

structure BulkRow where
  phone : String
  notes : Option String
  campaignId : Option String
  state : Option String
  deriving DecidableEq, Repr

def isQuote (c : Char) : Bool := c = '"' || c = '\''

/-- `replace(/^["']|["']$/g, "")` -/
def stripQuotes (s : List Char) : List Char :=
  let s := match s with
    | c :: rest => if isQuote c then rest else s
    | [] => []
  match s.reverse with
  | c :: rest => if isQuote c then rest.reverse else s
  | [] => []

def column (cols : List (List Char)) (i : Nat) : Option String :=
  match cols[i]? with
  | none => none
  | some [] => none
  | some c => some (String.ofList c)

def parseCsvLine (line : List Char) : Option BulkRow :=
  let cols := (line.splitOn ',').map fun c => stripQuotes (jsTrim c)
  (column cols 0).map fun phone => ⟨phone, column cols 1, column cols 2, column cols 3⟩

/-- The lines are cut at `\n`; trimming takes the `\r` before it. -/
def parseCsvRows (csvText : String) : List BulkRow :=
  let lines := ((csvText.toList.splitOn '\n').map jsTrim).filter fun l => decide (l ≠ [])
  let header := ((lines.headD []).take 5).map Char.toLower = "phone".toList
  (if header then lines.drop 1 else lines).filterMap parseCsvLine

inductive ImportSource
  | internal
  | state
  | litigator
  deriving DecidableEq, Repr

def ImportSource.row : ImportSource → Source
  | .internal => .internal
  | .state => .state
  | .litigator => .litigator

structure ImportOpts where
  tenantId : Int
  source : ImportSource
  csvText : String
  defaultNotes : Option String
  campaignId : Option String
  state : Option String
  deriving DecidableEq, Repr

structure ValidRow where
  phone : String
  campaignID : String
  state : String
  notes : String
  deriving DecidableEq, Repr

/-- What is outside the API: the phone number library, and the table after a
statement whose interpolated texts do not stay inside their quotes. -/
structure ImportEnv where
  db : MySQL
  parsePhoneNumber : String → Option String
  injected : ImportOpts → List ValidRow → List DncRow → List DncRow

def chunkSize : Nat := 1000

def maxRows : Nat := 5000

def parsePhone (env : ImportEnv) (raw : String) : Option String :=
  env.parsePhoneNumber (String.ofList (jsTrim raw.toList))

def validRow (env : ImportEnv) (opts : ImportOpts) (row : BulkRow) : Option ValidRow :=
  (parsePhone env row.phone).map fun phone =>
    { phone := phone
      campaignID := (row.campaignId.orElse fun _ => opts.campaignId).getD "__GLOBAL__"
      state := (row.state.orElse fun _ => opts.state).getD "__"
      notes := (row.notes.orElse fun _ => opts.defaultNotes).getD "" }

/-- The text means itself between the quotes of a SQL literal. Quotes in phone
and notes are doubled, those in state and campaign are not. -/
def ValidRow.plain (r : ValidRow) : Bool :=
  r.state.toList.all (fun c => c ≠ '\'' && c ≠ '\\') &&
    r.campaignID.toList.all (fun c => c ≠ '\'' && c ≠ '\\') &&
    r.phone.toList.all (fun c => c ≠ '\\') && r.notes.toList.all (fun c => c ≠ '\\')

def dbTenantId (opts : ImportOpts) : Int :=
  if opts.source = .internal then opts.tenantId else 0

/-- `INSERT IGNORE` cuts what is too long for `CHAR(2)` and `VARCHAR(32)`. -/
def ValidRow.row (opts : ImportOpts) (r : ValidRow) : DncRow :=
  ⟨dbTenantId opts, r.phone, opts.source.row, String.ofList (r.state.toList.take 2),
    String.ofList (r.campaignID.toList.take 32), none⟩

def insertValid (env : ImportEnv) (opts : ImportOpts) (s : DncStore) (valid : List ValidRow) :
    DncStore :=
  { s with
    table :=
      if valid.all ValidRow.plain then
        insertIgnore env.db.coll s.table (valid.map (ValidRow.row opts))
      else env.injected opts valid s.table
    statements := s.statements + 1 }

def importKey (opts : ImportOpts) : String :=
  match opts.source with
  | .internal => filterKey .internal (some opts.tenantId)
  | .state => filterKey .state (some opts.tenantId)
  | .litigator => filterKey .litigator none

structure ImportState where
  store : DncStore
  added : Nat
  rejected : Nat

def importChunk (env : ImportEnv) (opts : ImportOpts) (st : ImportState) (chunk : List BulkRow) :
    ImportState :=
  let valid := chunk.filterMap (validRow env opts)
  let rejected := st.rejected + (chunk.length - valid.length)
  if valid = [] then { st with rejected := rejected }
  else
    { store := madd (insertValid env opts st.store valid) (importKey opts) (valid.map ValidRow.phone)
      added := st.added + valid.length
      rejected := rejected }

def chunks (rows : List BulkRow) : List (List BulkRow) :=
  (List.range ((rows.length + chunkSize - 1) / chunkSize)).map fun i =>
    (rows.drop (i * chunkSize)).take chunkSize

def bulkImportDnc (env : ImportEnv) (opts : ImportOpts) (s : DncStore) : ImportState :=
  let rawRows := parseCsvRows opts.csvText
  let rows := rawRows.take maxRows
  (chunks rows).foldl (importChunk env opts) ⟨s, 0, rawRows.length - maxRows⟩

inductive DncWrite
  | bulkImport (opts : ImportOpts)
  | federalDelta (file : List String)

def write (env : ImportEnv) (s : DncStore) : DncWrite → DncStore
  | .bulkImport opts => (bulkImportDnc env opts s).store
  | .federalDelta file => (runFederalDeltaSync env.db file s).store

/-- Whatever the confirmation query returns for a tenant, the filter that this
tenant's check consults has the phone. -/
def Covered (coll : String → String) (s : DncStore) : Prop :=
  ∀ (now : Int) (a : ConfirmArgs) (sources : List Source) (src : DncSource),
    src.row ∈ confirmedSources coll s.table now a sources →
      (filterKey src (some a.tenantID), a.phone) ∈ s.bloom

def importedRows (env : ImportEnv) (opts : ImportOpts) : List ValidRow :=
  ((parseCsvRows opts.csvText).take maxRows).filterMap (validRow env opts)

/-- The texts of the import stay literals and it does not store state rows. -/
def SafeWrite (env : ImportEnv) : DncWrite → Prop
  | .bulkImport opts => (∀ r ∈ importedRows env opts, r.plain = true) ∧
      (opts.source = .state → importedRows env opts = [])
  | .federalDelta _ => True

end Dnc

end Vici2
