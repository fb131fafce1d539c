import Vici2.AuditInput

/-! The statement that the writer of a lead import builds for a batch. Its columns, the
placeholders of a row and the values bound to them are three lists kept by hand. -/

namespace Vici2

namespace DbWriterInsert

open Jcs AuditInput IsoTime

inductive Column
  | tenantId
  | listId
  | status
  | vendorLeadCode
  | sourceId
  | phoneE164
  | phoneAlt
  | phoneAlt2
  | countryCode
  | title
  | firstName
  | middleInitial
  | lastName
  | address1
  | address2
  | city
  | state
  | postalCode
  | email
  | dateOfBirth
  | gender
  | comments
  | rank
  | ownerUserId
  | customData
  | tzBlocked
  | version
  | entryAt
  | modifyAt
  deriving DecidableEq, Repr

/-- The columns in the order in which the statement lists them. -/
def columns : List Column :=
  [.tenantId, .listId, .status, .vendorLeadCode, .sourceId,
    .phoneE164, .phoneAlt, .phoneAlt2, .countryCode, .title,
    .firstName, .middleInitial, .lastName, .address1, .address2,
    .city, .state, .postalCode, .email, .dateOfBirth, .gender,
    .comments, .rank, .ownerUserId, .customData, .tzBlocked, .version,
    .entryAt, .modifyAt]

/-- What the statement writes for one row of the batch. -/
def placeholderGroup : String :=
  "(?, ?, ?, ?, ?, ?, ?, ?, ?, ?, ?, ?, ?, ?, ?, ?, ?, ?, ?, ?, ?, ?, ?, ?, ?, ?, ?, ?, ?, ?)"

def placeholderCount (group : String) : Nat := group.toList.count '?'

inductive SqlValue (ν : Type)
  | null
  | bigint (n : Int)
  | number (n : ν)
  | text (s : Units)

/-- The lead of a validated row; a field that is not there is `none`. -/
structure NormalizedLead (ν : Type) where
  phoneE164 : Units
  phoneAlt : Option Units
  phoneAlt2 : Option Units
  firstName : Option Units
  lastName : Option Units
  middleInitial : Option Units
  title : Option Units
  address1 : Option Units
  address2 : Option Units
  city : Option Units
  state : Option Units
  postalCode : Option Units
  countryCode : Option Units
  email : Option Units
  dateOfBirth : Option Units
  gender : Option Units
  comments : Option Units
  rank : Option ν
  ownerUserId : Option Int
  vendorLeadCode : Option Units
  sourceId : Option Units
  status : Option Units
  tzBlocked : Bool
  customData : Option (List (Units × Value ν))

structure DbWriterOptions where
  tenantId : Int
  listId : Int
  ownerUserId : Int

/-- The numbers of the language, as far as the writer names some. -/
structure Numbers (ν : Type) where
  text : NumberText ν
  ofNat : Nat → ν

structure Insert (ν : Type) where
  columns : List Column
  groups : List String
  values : List (SqlValue ν)

variable {ν : Type}

/-- `nowStr` -/
def timeText (now : Int) : Units :=
  (millisText now ++ ['Z']).filterMap fun c =>
    if c = 'T' then some ' '.toNat else if c = 'Z' then none else some c.toNat

def orNull (s : Option Units) : SqlValue ν := s.elim .null .text

section Statement

variable (J : Numbers ν) (opts : DbWriterOptions) (now : Int)

/-- What each column of a lead is to hold; an owner of 0 counts as none. -/
def columnValue (lead : NormalizedLead ν) : Column → SqlValue ν
  | .tenantId => .bigint opts.tenantId
  | .listId => .bigint opts.listId
  | .status => .text (lead.status.getD (ascii "NEW"))
  | .vendorLeadCode => orNull lead.vendorLeadCode
  | .sourceId => orNull lead.sourceId
  | .phoneE164 => .text lead.phoneE164
  | .phoneAlt => orNull lead.phoneAlt
  | .phoneAlt2 => orNull lead.phoneAlt2
  | .countryCode => .text (lead.countryCode.getD (ascii "US"))
  | .title => orNull lead.title
  | .firstName => orNull lead.firstName
  | .middleInitial => orNull lead.middleInitial
  | .lastName => orNull lead.lastName
  | .address1 => orNull lead.address1
  | .address2 => orNull lead.address2
  | .city => orNull lead.city
  | .state => orNull lead.state
  | .postalCode => orNull lead.postalCode
  | .email => orNull lead.email
  | .dateOfBirth => orNull lead.dateOfBirth
  | .gender => .text (lead.gender.getD (ascii "U"))
  | .comments => orNull lead.comments
  | .rank => .number (lead.rank.getD (J.ofNat 0))
  | .ownerUserId => .bigint ((lead.ownerUserId.filter fun n => n ≠ 0).getD opts.ownerUserId)
  | .customData => .text (stringifyValue J.text (.obj (lead.customData.getD [])))
  | .tzBlocked => .number (J.ofNat (if lead.tzBlocked then 1 else 0))
  | .version => .number (J.ofNat 1)
  | .entryAt => .text (timeText now)
  | .modifyAt => .text (timeText now)

/-- The values pushed for one row. -/
def rowValues (lead : NormalizedLead ν) : List (SqlValue ν) :=
  [.bigint opts.tenantId,
    .bigint opts.listId,
    .text (lead.status.getD (ascii "NEW")),
    orNull lead.vendorLeadCode,
    orNull lead.sourceId,
    .text lead.phoneE164,
    orNull lead.phoneAlt,
    orNull lead.phoneAlt2,
    .text (lead.countryCode.getD (ascii "US")),
    orNull lead.title,
    orNull lead.firstName,
    orNull lead.middleInitial,
    orNull lead.lastName,
    orNull lead.address1,
    orNull lead.address2,
    orNull lead.city,
    orNull lead.state,
    orNull lead.postalCode,
    orNull lead.email,
    orNull lead.dateOfBirth,
    .text (lead.gender.getD (ascii "U")),
    orNull lead.comments,
    .number (lead.rank.getD (J.ofNat 0)),
    .bigint ((lead.ownerUserId.filter fun n => n ≠ 0).getD opts.ownerUserId),
    .text (stringifyValue J.text (.obj (lead.customData.getD []))),
    .number (J.ofNat (if lead.tzBlocked then 1 else 0)),
    .number (J.ofNat 1),
    .text (timeText now),
    .text (timeText now)]

/-- The loop over the rows. -/
def buildInsert (leads : List (NormalizedLead ν)) : Insert ν :=
  leads.foldl (fun stmt lead =>
    { stmt with
      groups := stmt.groups ++ [placeholderGroup]
      values := stmt.values ++ rowValues J opts now lead })
    ⟨columns, [], []⟩

end Statement

/-- The value that the `j`-th placeholder of the `i`-th group takes from the flat list. -/
def Insert.bound (stmt : Insert ν) (i j : Nat) : Option (SqlValue ν) :=
  stmt.values[((stmt.groups.take i).map placeholderCount).sum + j]?

section LinesUp

variable (J : Numbers ν) (opts : DbWriterOptions) (now : Int)

structure LinesUp (leads : List (NormalizedLead ν)) (stmt : Insert ν) : Prop where
  groups : stmt.groups.length = leads.length
  placeholders : ∀ group ∈ stmt.groups, placeholderCount group = stmt.columns.length
  values : stmt.values.length = leads.length * stmt.columns.length
  bound : ∀ i lead, leads[i]? = some lead → ∀ (j : Nat) column, stmt.columns[j]? = some column →
    stmt.bound i j = some (columnValue J opts now lead column)

/-- The flat list has a value for each column of each lead, in the order of the columns. -/
structure ValuesInStep (leads : List (NormalizedLead ν)) (stmt : Insert ν) : Prop where
  length : stmt.values.length = leads.length * stmt.columns.length
  value : ∀ i lead, leads[i]? = some lead → ∀ (j : Nat) column, stmt.columns[j]? = some column →
    stmt.values[i * stmt.columns.length + j]? = some (columnValue J opts now lead column)

end LinesUp

theorem length_flatMap_of_length {α β : Type*} {f : α → List β} {n : Nat}
    (h : ∀ a, (f a).length = n) (l : List α) : (l.flatMap f).length = l.length * n := by
  induction l with
  | nil => simp
  | cons a l ih =>
    rw [List.flatMap_cons, List.length_append, h, ih, List.length_cons, Nat.succ_mul]
    omega

/-- Blocks of one length, one after the other. -/
theorem getElem?_flatMap_of_length {α β : Type*} {f : α → List β} {n : Nat}
    (h : ∀ a, (f a).length = n) (l : List α) (i : Nat) {j : Nat} (hj : j < n) :
    (l.flatMap f)[i * n + j]? = l[i]?.bind fun a => (f a)[j]? := by
  induction l generalizing i with
  | nil => simp
  | cons a l ih =>
    have ha := h a
    cases i with
    | zero =>
      rw [List.flatMap_cons, Nat.zero_mul, Nat.zero_add, List.getElem?_append_left (by omega)]
      rfl
    | succ i =>
      have hshift : (i + 1) * n + j - (f a).length = i * n + j := by
        rw [ha, Nat.succ_mul]
        omega
      have hpast : (f a).length ≤ (i + 1) * n + j := by
        rw [ha, Nat.succ_mul]
        omega
      rw [List.flatMap_cons, List.getElem?_append_right hpast, hshift, ih]
      rfl

section Insert

variable {J : Numbers ν} {opts : DbWriterOptions} {now : Int}

theorem buildInsert_eq (leads : List (NormalizedLead ν)) :
    buildInsert J opts now leads =
      ⟨columns, leads.map fun _ => placeholderGroup, leads.flatMap (rowValues J opts now)⟩ := by
  have hfold : ∀ (groups : List String) (values : List (SqlValue ν)),
      leads.foldl (fun stmt lead =>
        { stmt with
          groups := stmt.groups ++ [placeholderGroup]
          values := stmt.values ++ rowValues J opts now lead })
        (⟨columns, groups, values⟩ : Insert ν) =
      ⟨columns, groups ++ leads.map fun _ => placeholderGroup,
        values ++ leads.flatMap (rowValues J opts now)⟩ := by
    induction leads with
    | nil => simp
    | cons lead leads ih =>
      intro groups values
      rw [List.foldl_cons, ih]
      simp
  exact hfold [] []

theorem rowValues_eq (lead : NormalizedLead ν) :
    rowValues J opts now lead = columns.map (columnValue J opts now lead) := rfl

theorem length_rowValues (lead : NormalizedLead ν) :
    (rowValues J opts now lead).length = columns.length := by
  rw [rowValues_eq, List.length_map]

theorem buildInsert_valuesInStep (leads : List (NormalizedLead ν)) :
    ValuesInStep J opts now leads (buildInsert J opts now leads) := by
  rw [buildInsert_eq]
  refine ⟨length_flatMap_of_length length_rowValues leads, ?_⟩
  intro i lead hi j column hj
  have hlt : j < columns.length := (List.getElem?_eq_some_iff.1 hj).1
  rw [getElem?_flatMap_of_length length_rowValues leads i hlt, hi, Option.bind_some, rowValues_eq,
    List.getElem?_map, hj]
  rfl

theorem placeholderCount_group : placeholderCount placeholderGroup = columns.length + 1 := by
  decide +kernel

/-- Every batch has a placeholder too many in each group, though its values follow the
columns. -/
theorem insert_never_lines_up {leads : List (NormalizedLead ν)} (h : leads ≠ []) :
    ¬ LinesUp J opts now leads (buildInsert J opts now leads) ∧
      ValuesInStep J opts now leads (buildInsert J opts now leads) := by
  refine ⟨?_, buildInsert_valuesInStep leads⟩
  intro hup
  obtain ⟨lead, rest, rfl⟩ := List.exists_cons_of_ne_nil h
  have hgroups := hup.placeholders
  rw [buildInsert_eq] at hgroups
  have hcount := hgroups placeholderGroup (by simp)
  rw [placeholderCount_group] at hcount
  exact absurd hcount (Nat.succ_ne_self _)

end Insert

def bits : Numbers (Fin 2) where
  text := ⟨fun n => [48 + n.val], by decide, by decide, by decide⟩
  ofNat := fun n => Fin.ofNat 2 n

/-- A lead of which nothing but the number is known. -/
def phoneOnly : NormalizedLead (Fin 2) where
  phoneE164 := ascii "+12125550100"
  phoneAlt := none
  phoneAlt2 := none
  firstName := none
  lastName := none
  middleInitial := none
  title := none
  address1 := none
  address2 := none
  city := none
  state := none
  postalCode := none
  countryCode := none
  email := none
  dateOfBirth := none
  gender := none
  comments := none
  rank := none
  ownerUserId := none
  vendorLeadCode := none
  sourceId := none
  status := none
  tzBlocked := false
  customData := none

theorem phone_only_out_of_step :
    ¬ LinesUp bits ⟨1, 7, 3⟩ 0 [phoneOnly] (buildInsert bits ⟨1, 7, 3⟩ 0 [phoneOnly]) ∧
      ValuesInStep bits ⟨1, 7, 3⟩ 0 [phoneOnly] (buildInsert bits ⟨1, 7, 3⟩ 0 [phoneOnly]) :=
  insert_never_lines_up (List.cons_ne_nil _ _)

theorem one_lead_thirty_placeholders :
    (buildInsert bits ⟨1, 7, 3⟩ 0 [phoneOnly]).groups.map placeholderCount = [30] ∧
      (buildInsert bits ⟨1, 7, 3⟩ 0 [phoneOnly]).columns.length = 29 ∧
      (buildInsert bits ⟨1, 7, 3⟩ 0 [phoneOnly]).values.length = 29 ∧
      ¬ LinesUp bits ⟨1, 7, 3⟩ 0 [phoneOnly] (buildInsert bits ⟨1, 7, 3⟩ 0 [phoneOnly]) := by
  refine ⟨by decide +kernel, rfl, rfl, ?_⟩
  intro h
  have hcount := h.placeholders placeholderGroup (List.mem_singleton_self _)
  revert hcount
  decide +kernel

end DbWriterInsert

end Vici2
