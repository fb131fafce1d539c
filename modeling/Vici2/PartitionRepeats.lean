import Vici2.PartitionMonths
import Vici2.Runs

/-! Rotations of one table, one after another. The next partition follows the newest one
and not the date, so a second run at the same time adds the month after. -/

namespace Vici2

namespace Partition

open IsoTime JsDate

/-- What answers while a table is rotated. The clock is past 1970, and a bound that the
database accepts is a date whose year has four digits. -/
structure Answers where
  today : Int
  attestations : Except String (List AttestationRow)
  diskFree : String → Except String Unit
  execute : Ddl → Except String Unit
  fallback : List Char → Option Int
  today_valid : 0 ≤ today ∧ today ≤ maxTime
  bound_date : ∀ table name lessThan, execute (.addPartition table name lessThan) = .ok () →
    ∃ day, (0 ≤ (civil day).1 ∧ (civil day).1 ≤ 9999) ∧ lessThan = dateText day

def Answers.session (ans : Answers) (rows refreshed : List SchemaPartition) : Session :=
  ⟨some rows, some refreshed, ans.today, ans.attestations, ans.diskFree, ans.execute, ans.fallback⟩

def quoted (text : List Char) : String :=
  String.ofList (Char.ofNat 39 :: (text ++ [Char.ofNat 39]))

/-- The partitions after a statement; an addition splits `p_max`. -/
def applyDdl (rows : List SchemaPartition) : Ddl → List SchemaPartition
  | .addPartition _ name lessThan => rows.flatMap fun p =>
      if p.name = "p_max" then [⟨name, quoted lessThan⟩, ⟨"p_max", "MAXVALUE"⟩] else [p]
  | .dropPartition _ name => rows.filter fun p => p.name ≠ name

/-- The statements of a rotation of a table that holds `rows`. Read again after the
addition, the table holds what the addition left. -/
def rotationDdl (ans : Answers) (config : TableConfig) (now : Int) (dryRun : Bool)
    (rows : List SchemaPartition) : List Ddl :=
  let added := match addNextPartition (ans.session rows rows) config rows dryRun with
    | .ok (_, ddl) => ddl
    | .error _ => []
  (rotateTable (ans.session rows (added.foldl applyDdl rows)) config now dryRun).2

/-- Where the next partition starts. -/
def nextMonth (ans : Answers) (rows : List SchemaPartition) : Option Int :=
  match (namedPartitions rows).getLast? with
  | none => firstOfMonth (year ans.today) (month ans.today + 1)
  | some newest => parsePartitionBoundary ans.fallback newest.description

/-- No date is a month after the start. -/
def pastCalendar (ans : Answers) (rows : List SchemaPartition) : Bool :=
  match nextMonth ans rows with
  | none => false
  | some start => (addMonths (some start) 1).isNone

/-- The statement that adds the month after the newest partition: its start can be read,
no partition has its name, and the database accepts it. -/
def nextAlter (ans : Answers) (config : TableConfig) (rows : List SchemaPartition) : Option Ddl :=
  (nextMonth ans rows).bind fun start => (addMonths (some start) 1).bind fun next =>
    let name := partitionNameFromBoundary start
    let sql := Ddl.addPartition config.table name (isoDate next)
    if rows.any fun p => p.name = name then none
    else match ans.execute sql with
      | .error _ => none
      | .ok () => some sql

def grown (ans : Answers) (config : TableConfig) (rows : List SchemaPartition) :
    List SchemaPartition :=
  (nextAlter ans config rows).toList.foldl applyDdl rows

/-- An expired partition whose gate throws. -/
def stops (s : Session) (config : TableConfig) (cutoff : Option Int) (p : SchemaPartition) : Bool :=
  match parsePartitionBoundary s.fallback p.description with
  | none => false
  | some upperBound => !afterCutoff upperBound cutoff &&
      match attestationGate s config (isoDate upperBound) with
      | .error _ => true
      | .ok _ => false

/-- An expired partition that the gate, the disk and the database let go. -/
def released (s : Session) (config : TableConfig) (cutoff : Option Int) (p : SchemaPartition) : Bool :=
  match parsePartitionBoundary s.fallback p.description with
  | none => false
  | some upperBound => !afterCutoff upperBound cutoff &&
      match attestationGate s config (isoDate upperBound), s.diskFree p.name,
        s.execute (.dropPartition config.table p.name) with
      | .ok (.ok ()), .ok (), .ok () => true
      | _, _, _ => false

/-- The partitions that go: from the oldest on, those released before one stops the loop. -/
def gone (s : Session) (config : TableConfig) (cutoff : Option Int) (rows : List SchemaPartition) :
    List SchemaPartition :=
  ((namedPartitions rows).takeWhile fun p => !stops s config cutoff p).filter
    (released s config cutoff)

def goneBy (ans : Answers) (config : TableConfig) (now : Int) (rows : List SchemaPartition) :
    List SchemaPartition :=
  if pastCalendar ans rows then []
  else gone (ans.session rows rows) config (retentionCutoff now config.retentionMonths)
    (grown ans config rows)

/-- The partitions that a rotation leaves. -/
def remaining (ans : Answers) (config : TableConfig) (now : Int) (rows : List SchemaPartition) :
    List SchemaPartition :=
  (grown ans config rows).filter fun p => p ∉ goneBy ans config now rows

section Loop

variable {s : Session} {config : TableConfig} {cutoff : Option Int} {p : SchemaPartition}

theorem dropPartition_stops (h : stops s config cutoff p = true) :
    ∃ e, dropPartition s config cutoff false p = .error e := by
  unfold stops at h
  unfold dropPartition
  cases hparse : parsePartitionBoundary s.fallback p.description with
  | none => simp [hparse] at h
  | some upperBound =>
    cases hgate : attestationGate s config (isoDate upperBound) with
    | ok gate => simp [hparse, hgate] at h
    | error e =>
      simp [hparse, hgate] at h
      simp [h, hgate]

theorem dropPartition_ddl (h : stops s config cutoff p = false) :
    ∃ results, dropPartition s config cutoff false p = .ok (results,
      if released s config cutoff p then [.dropPartition config.table p.name] else []) := by
  unfold stops at h
  unfold dropPartition released
  cases hparse : parsePartitionBoundary s.fallback p.description with
  | none => simp
  | some upperBound =>
    cases hafter : afterCutoff upperBound cutoff with
    | true => simp [hafter]
    | false =>
      cases hgate : attestationGate s config (isoDate upperBound) with
      | error e => simp [hparse, hafter, hgate] at h
      | ok gate =>
        cases gate with
        | error reason => simp [hafter, hgate]
        | ok _ =>
          cases hdisk : s.diskFree p.name with
          | error reason => simp [hafter, hgate]
          | ok _ =>
            cases hexec : s.execute (.dropPartition config.table p.name) with
            | error e => simp [hafter, hgate, hexec]
            | ok _ => simp [hafter, hgate, hexec]

theorem dropPartitions_ddl (ps : List SchemaPartition) :
    (dropPartitions s config cutoff false ps).2 =
      ((ps.takeWhile fun p => !stops s config cutoff p).filter (released s config cutoff)).map
        fun p => .dropPartition config.table p.name := by
  induction ps with
  | nil => rfl
  | cons p ps ih =>
    cases hstops : stops s config cutoff p with
    | true =>
      obtain ⟨e, he⟩ := dropPartition_stops hstops
      rw [List.takeWhile_cons_of_neg (by simp [hstops])]
      simp [dropPartitions, he]
    | false =>
      obtain ⟨results, hp⟩ := dropPartition_ddl hstops
      rw [List.takeWhile_cons_of_pos (by simp [hstops])]
      cases hreleased : released s config cutoff p with
      | true => simp [dropPartitions, hp, hreleased, ih]
      | false => simp [dropPartitions, hp, hreleased, ih]

theorem dropPartitions_dryRun (ps : List SchemaPartition) :
    (dropPartitions s config cutoff true ps).2 = [] := by
  have hstep : ∀ p results ddl, dropPartition s config cutoff true p = .ok (results, ddl) → ddl = [] := by
    intro p results ddl h
    unfold dropPartition at h
    simp only [↓reduceIte] at h
    repeat' split at h
    all_goals
      cases h
    all_goals rfl
  induction ps with
  | nil => rfl
  | cons p ps ih =>
    unfold dropPartitions
    split
    · rfl
    · next results ddl hp =>
      dsimp only
      rw [hstep p results ddl hp, ih]
      rfl

theorem not_released_of_stops (h : stops s config cutoff p = true) : released s config cutoff p = false := by
  unfold stops at h
  unfold released
  cases hparse : parsePartitionBoundary s.fallback p.description with
  | none => rfl
  | some upperBound =>
    cases hgate : attestationGate s config (isoDate upperBound) with
    | ok gate => simp [hparse, hgate] at h
    | error e => simp [hgate]

end Loop

/-- In a list in strict order, the elements that `takeWhile` keeps are those with no
failing element at or before them. -/
theorem mem_takeWhile_of_pairwise {α : Type} (r : α → α → Bool) {f : α → Bool} {p : α} {l : List α}
    (hrefl : r p p = true) (h : l.Pairwise fun a b => r a b = true ∧ r b a = false) :
    p ∈ l.takeWhile f ↔ p ∈ l ∧ ∀ q ∈ l, r q p = true → f q = true := by
  induction l with
  | nil => simp
  | cons a l ih =>
    obtain ⟨hfirst, hrest⟩ := List.pairwise_cons.1 h
    cases ha : f a with
    | false =>
      rw [List.takeWhile_cons_of_neg (by simp [ha])]
      constructor
      · intro hp
        cases hp
      · rintro ⟨hp, hall⟩
        have hle : r a p = true := by
          rcases List.mem_cons.1 hp with rfl | hp
          · exact hrefl
          · exact (hfirst p hp).1
        have := hall a List.mem_cons_self hle
        rw [ha] at this
        cases this
    | true =>
      rw [List.takeWhile_cons_of_pos ha, List.mem_cons, ih hrest]
      constructor
      · rintro (rfl | ⟨hp, hall⟩)
        · refine ⟨List.mem_cons_self, ?_⟩
          intro q hq hle
          rcases List.mem_cons.1 hq with rfl | hq
          · exact ha
          · rw [(hfirst q hq).2] at hle
            cases hle
        · refine ⟨List.mem_cons_of_mem _ hp, ?_⟩
          intro q hq hle
          rcases List.mem_cons.1 hq with rfl | hq
          · exact ha
          · exact hall q hq hle
      · rintro ⟨hp, hall⟩
        rcases List.mem_cons.1 hp with rfl | hp
        · exact Or.inl rfl
        · exact Or.inr ⟨hp, fun q hq => hall q (List.mem_cons_of_mem _ hq)⟩

section Layouts

variable {rows : List SchemaPartition} {p q : SchemaPartition}

theorem mem_namedPartitions : p ∈ namedPartitions rows ↔ p ∈ rows ∧ namedMonth p.name.toList = true := by
  unfold namedPartitions
  rw [List.mem_insertionSort, List.mem_filter]

theorem eq_of_name (h : (rows.map SchemaPartition.name).Nodup) (hp : p ∈ rows) (hq : q ∈ rows)
    (hname : p.name = q.name) : p = q :=
  List.inj_on_of_nodup_map h hp hq hname

theorem namedPartitions_sorted (rows : List SchemaPartition) : (namedPartitions rows).Pairwise
    fun p q => textLe p.name.toList q.name.toList = true := by
  have htotal : Std.Total fun p q : SchemaPartition => textLe p.name.toList q.name.toList = true :=
    ⟨fun p q => textLe_total p.name.toList q.name.toList⟩
  have htrans : IsTrans SchemaPartition fun p q => textLe p.name.toList q.name.toList = true :=
    ⟨fun p q r => textLe_trans⟩
  exact List.pairwise_insertionSort _ _

theorem namedPartitions_pairwise (h : (rows.map SchemaPartition.name).Nodup) :
    (namedPartitions rows).Pairwise fun p q => textLe p.name.toList q.name.toList = true ∧
      textLe q.name.toList p.name.toList = false := by
  have hperm : (namedPartitions rows).Perm (rows.filter fun p => namedMonth p.name.toList) :=
    List.perm_insertionSort _ _
  have hnames : ((namedPartitions rows).map SchemaPartition.name).Nodup := by
    rw [(hperm.map SchemaPartition.name).nodup_iff]
    exact h.sublist (List.filter_sublist.map _)
  have hne : (namedPartitions rows).Pairwise fun p q => p.name ≠ q.name := List.pairwise_map.1 hnames
  apply ((namedPartitions_sorted rows).and hne).imp
  intro p q hpq
  refine ⟨hpq.1, ?_⟩
  cases hqp : textLe q.name.toList p.name.toList with
  | false => rfl
  | true => exact absurd (String.toList_inj.1 (textLe_antisymm hpq.1 hqp)) hpq.2

theorem newest_max (hlast : (namedPartitions rows).getLast? = some p) (hq : q ∈ namedPartitions rows) :
    textLe q.name.toList p.name.toList = true := by
  obtain ⟨front, hfront⟩ := List.getLast?_eq_some_iff.1 hlast
  have hsorted := namedPartitions_sorted rows
  rw [hfront] at hsorted hq
  rcases List.mem_append.1 hq with hq | hq
  · exact (List.pairwise_append.1 hsorted).2.2 q hq p (List.mem_singleton_self p)
  · rw [List.mem_singleton.1 hq]
    exact textLe_refl _

end Layouts

section Rotation

variable {ans : Answers} {config : TableConfig} {now : Int} {rows refreshed : List SchemaPartition}

/-- The addition, once the start of the next partition is known. -/
theorem addNextPartition_of_nextMonth {start : Int} (h : nextMonth ans rows = some start) :
    addNextPartition (ans.session rows refreshed) config rows false =
      match addMonths (some start) 1 with
      | none => .error invalidTime
      | some next =>
        let name := partitionNameFromBoundary start
        let boundary := isoDate next
        let sql := Ddl.addPartition config.table name boundary
        if rows.any fun p => p.name = name then
          .ok (⟨config.table, name, .addSkipped, false, some boundary, some "already_exists", none⟩, [])
        else match ans.execute sql with
          | .error e => .ok (⟨config.table, name, .addError, false, some boundary, none, some e⟩, [])
          | .ok () => .ok (⟨config.table, name, .add, false, some boundary, none, none⟩, [sql]) := by
  unfold nextMonth at h
  unfold addNextPartition
  cases hlast : (namedPartitions rows).getLast? with
  | none =>
    rw [hlast] at h
    dsimp only [Answers.session] at h ⊢
    rw [h]
    cases addMonths (some start) 1 <;> rfl
  | some newest =>
    rw [hlast] at h
    dsimp only [Answers.session] at h ⊢
    rw [h]
    cases haddMonths : addMonths (some start) 1 with
    | none => simp only [haddMonths]
    | some next =>
      dsimp only
      rw [haddMonths]
      rfl

/-- Without a start, the newest partition is one whose bound cannot be read. -/
theorem addNextPartition_unparsable (h : nextMonth ans rows = none) :
    ∃ result, addNextPartition (ans.session rows refreshed) config rows false = .ok (result, []) ∧
      result.action ≠ .add := by
  unfold nextMonth at h
  unfold addNextPartition
  cases hlast : (namedPartitions rows).getLast? with
  | none =>
    rw [hlast] at h
    dsimp only at h
    rw [firstOfMonth_now ans.today_valid.1 ans.today_valid.2] at h
    cases h
  | some newest =>
    rw [hlast] at h
    dsimp only [Answers.session] at h ⊢
    rw [h]
    refine ⟨_, rfl, ?_⟩
    intro hadd
    cases hadd

theorem addNextPartition_pastCalendar (config : TableConfig) (refreshed : List SchemaPartition)
    (h : pastCalendar ans rows = true) :
    nextAlter ans config rows = none ∧
      ∃ e, addNextPartition (ans.session rows refreshed) config rows false = .error e := by
  unfold pastCalendar at h
  cases hnext : nextMonth ans rows with
  | none => simp [hnext] at h
  | some start =>
    have hend : addMonths (some start) 1 = none := by simpa [hnext] using h
    constructor
    · simp [nextAlter, hnext, hend]
    · rw [addNextPartition_of_nextMonth hnext, hend]
      exact ⟨_, rfl⟩

theorem addNextPartition_ddl (config : TableConfig) (refreshed : List SchemaPartition)
    (h : pastCalendar ans rows = false) :
    ∃ result, addNextPartition (ans.session rows refreshed) config rows false =
        .ok (result, (nextAlter ans config rows).toList) ∧
      (result.action ≠ .add → nextAlter ans config rows = none) := by
  unfold pastCalendar at h
  cases hnext : nextMonth ans rows with
  | none =>
    obtain ⟨result, hresult, -⟩ := addNextPartition_unparsable hnext
    have hnone : nextAlter ans config rows = none := by simp [nextAlter, hnext]
    rw [hnone]
    exact ⟨result, hresult, fun _ => rfl⟩
  | some start =>
    rw [addNextPartition_of_nextMonth hnext]
    cases hend : addMonths (some start) 1 with
    | none => simp [hnext, hend] at h
    | some next =>
      unfold nextAlter
      rw [hnext, Option.bind_some, hend, Option.bind_some]
      dsimp only
      split
      · exact ⟨_, rfl, fun _ => rfl⟩
      · cases hexec : ans.execute (.addPartition config.table (partitionNameFromBoundary start)
          (isoDate next)) with
        | error e => exact ⟨_, rfl, fun _ => rfl⟩
        | ok _ =>
          refine ⟨_, rfl, ?_⟩
          intro hadd
          exact absurd rfl hadd

/-- The statements of a rotation are those of its addition and then those of its drops. -/
theorem rotateTable_ddl {s : Session} {dryRun : Bool} {partitions : List SchemaPartition}
    {added : PartitionResult × List Ddl} (hfetch : fetchPartitions s.partitions = some partitions)
    (hadd : addNextPartition s config partitions dryRun = .ok added) :
    (rotateTable s config now dryRun).2 = added.2 ++ (dropExpiredPartitions s config
      (if added.1.action = .add then (fetchPartitions s.refreshed).getD partitions else partitions)
        now dryRun).2 := by
  unfold rotateTable
  rw [hfetch]
  dsimp only
  rw [hadd]
  dsimp only
  split
  · next hdrops => rw [hdrops]
  · next hdrops => rw [hdrops]

theorem rotationDdl_dryRun (ans : Answers) (config : TableConfig) (now : Int)
    (rows : List SchemaPartition) : rotationDdl ans config now true rows = [] := by
  have hadd : ∀ s partitions result ddl,
      addNextPartition s config partitions true = .ok (result, ddl) → ddl = [] := by
    intro s partitions result ddl h
    unfold addNextPartition at h
    simp only [↓reduceIte] at h
    repeat' split at h
    all_goals
      cases h
    all_goals rfl
  unfold rotationDdl
  dsimp only
  obtain ⟨s, hs⟩ : ∃ s, s = ans.session rows ((match addNextPartition (ans.session rows rows)
    config rows true with
    | .ok (_, ddl) => ddl
    | .error _ => []).foldl applyDdl rows) := ⟨_, rfl⟩
  rw [← hs]
  cases hfetch : fetchPartitions s.partitions with
  | none => simp only [rotateTable, hfetch]
  | some partitions =>
    cases hresult : addNextPartition s config partitions true with
    | error e => simp only [rotateTable, hfetch, hresult]
    | ok result =>
      rw [rotateTable_ddl hfetch hresult, hadd _ _ _ _ hresult]
      exact dropPartitions_dryRun _

theorem fetchPartitions_of_ne_nil (h : rows ≠ []) : fetchPartitions (some rows) = some rows := by
  simp [fetchPartitions, h]

theorem applyDdl_add_ne_nil (table name : String) (lessThan : List Char) (h : rows ≠ []) :
    applyDdl rows (.addPartition table name lessThan) ≠ [] := by
  cases rows with
  | nil => exact absurd rfl h
  | cons p rows =>
    simp only [applyDdl, List.flatMap_cons]
    split <;> simp

/-- What the rotator and the database have checked of the statement that adds a month. -/
structure Adds (ans : Answers) (config : TableConfig) (rows : List SchemaPartition) (sql : Ddl)
    (start next : Int) : Prop where
  start_eq : nextMonth ans rows = some start
  next_eq : addMonths (some start) 1 = some next
  name_free : ∀ p ∈ rows, p.name ≠ partitionNameFromBoundary start
  sql_eq : sql = .addPartition config.table (partitionNameFromBoundary start) (isoDate next)
  accepted : ans.execute sql = .ok ()

theorem nextAlter_some {sql : Ddl} (h : nextAlter ans config rows = some sql) :
    ∃ start next, Adds ans config rows sql start next := by
  unfold nextAlter at h
  obtain ⟨start, hstart, h⟩ := Option.bind_eq_some_iff.1 h
  obtain ⟨next, hnext, h⟩ := Option.bind_eq_some_iff.1 h
  dsimp only at h
  split at h
  · cases h
  · next hfree =>
    split at h
    · cases h
    · next hexec =>
      obtain rfl := Option.some.inj h
      refine ⟨start, next, hstart, hnext, ?_, rfl, hexec⟩
      intro p hp hname
      exact hfree (List.any_eq_true.2 ⟨p, hp, decide_eq_true hname⟩)

/-- What a rotation issues: the next partition, then the drops. -/
theorem rotationDdl_eq (ans : Answers) (config : TableConfig) (now : Int) (h : rows ≠ []) :
    rotationDdl ans config now false rows = (nextAlter ans config rows).toList ++
      (goneBy ans config now rows).map fun p => .dropPartition config.table p.name := by
  have hfetch : ∀ refreshed, fetchPartitions (ans.session rows refreshed).partitions = some rows :=
    fun _ => fetchPartitions_of_ne_nil h
  unfold rotationDdl goneBy
  cases hpast : pastCalendar ans rows with
  | true =>
    obtain ⟨hnone, e, he⟩ := addNextPartition_pastCalendar config rows hpast
    have hdrop : (rotateTable (ans.session rows rows) config now false).2 = [] := by
      simp only [rotateTable, hfetch, he]
    rw [he, hnone]
    exact hdrop
  | false =>
    obtain ⟨result, hresult, hkept⟩ := addNextPartition_ddl config rows hpast
    obtain ⟨result', hresult', hkept'⟩ := addNextPartition_ddl config (grown ans config rows) hpast
    have hgrown : grown ans config rows ≠ [] := by
      unfold grown
      cases hnext : nextAlter ans config rows with
      | none => exact h
      | some sql =>
        obtain ⟨start, next, hsql⟩ := nextAlter_some hnext
        rw [hsql.sql_eq]
        exact applyDdl_add_ne_nil config.table (partitionNameFromBoundary start) (isoDate next) h
    have hcurrent : (if result'.action = .add then
        (fetchPartitions (some (grown ans config rows))).getD rows else rows) = grown ans config rows := by
      split
      · rw [fetchPartitions_of_ne_nil hgrown]
        rfl
      · next hkeep =>
        unfold grown
        rw [hkept' hkeep]
        rfl
    rw [hresult]
    change (rotateTable (ans.session rows (grown ans config rows)) config now false).2 = _
    rw [rotateTable_ddl (hfetch _) hresult']
    change _ ++ (dropExpiredPartitions _ config (if result'.action = .add then
      (fetchPartitions (some (grown ans config rows))).getD rows else rows) now false).2 = _
    rw [hcurrent]
    congr 1
    exact dropPartitions_ddl _

end Rotation

section Names

variable {rows dropped : List SchemaPartition} {table name : String} {lessThan : List Char}
  {p : SchemaPartition}

theorem flatMap_of_no_max {names : List String} (h : "p_max" ∉ names) :
    names.flatMap (fun x => if x = "p_max" then [name, "p_max"] else [x]) = names := by
  induction names with
  | nil => rfl
  | cons x names ih =>
    have hx : x ≠ "p_max" := fun hx => h (hx ▸ List.mem_cons_self)
    rw [List.flatMap_cons, if_neg hx, ih fun hmem => h (List.mem_cons_of_mem _ hmem)]
    rfl

theorem flatMap_perm {names : List String} (hnodup : names.Nodup) (hmax : "p_max" ∈ names) :
    (names.flatMap fun x => if x = "p_max" then [name, "p_max"] else [x]).Perm (name :: names) := by
  induction names with
  | nil => cases hmax
  | cons x names ih =>
    obtain ⟨hx, hnames⟩ := List.nodup_cons.1 hnodup
    rw [List.flatMap_cons]
    by_cases hxmax : x = "p_max"
    · subst hxmax
      rw [if_pos rfl, flatMap_of_no_max hx]
      exact List.Perm.refl _
    · rw [if_neg hxmax]
      have hrest := ih hnames ((List.mem_cons.1 hmax).resolve_left (Ne.symm hxmax))
      exact (hrest.cons x).trans (List.Perm.swap name x names)

theorem names_applyDdl_add (table name : String) (lessThan : List Char)
    (hnodup : (rows.map SchemaPartition.name).Nodup)
    (hmax : "p_max" ∈ rows.map SchemaPartition.name) :
    ((applyDdl rows (.addPartition table name lessThan)).map SchemaPartition.name).Perm
      (name :: rows.map SchemaPartition.name) := by
  have hmap : (applyDdl rows (.addPartition table name lessThan)).map SchemaPartition.name =
      (rows.map SchemaPartition.name).flatMap fun x => if x = "p_max" then [name, "p_max"] else [x] := by
    unfold applyDdl
    dsimp only
    rw [List.map_flatMap, List.flatMap_map]
    apply List.flatMap_congr
    intro p _
    split <;> rfl
  rw [hmap]
  exact flatMap_perm hnodup hmax

/-- An addition leaves the partitions as they were and adds one. -/
theorem mem_named_applyDdl_add (hmax : "p_max" ∈ rows.map SchemaPartition.name) :
    p ∈ namedPartitions (applyDdl rows (.addPartition table name lessThan)) ↔
      p ∈ namedPartitions rows ∨ p = ⟨name, quoted lessThan⟩ ∧ namedMonth name.toList = true := by
  obtain ⟨last, hlast, hname⟩ := List.mem_map.1 hmax
  have hmaxMonth : namedMonth "p_max".toList = false := by decide
  rw [mem_namedPartitions, mem_namedPartitions]
  simp only [applyDdl, List.mem_flatMap]
  constructor
  · rintro ⟨⟨q, hq, hp⟩, hmonth⟩
    split at hp
    · rcases List.mem_cons.1 hp with rfl | hp
      · exact Or.inr ⟨rfl, hmonth⟩
      · rw [List.mem_singleton.1 hp, hmaxMonth] at hmonth
        cases hmonth
    · rw [List.mem_singleton.1 hp] at hmonth ⊢
      exact Or.inl ⟨hq, hmonth⟩
  · rintro (⟨hp, hmonth⟩ | ⟨rfl, hmonth⟩)
    · refine ⟨⟨p, hp, ?_⟩, hmonth⟩
      rw [if_neg]
      · exact List.mem_singleton_self p
      · intro hpmax
        rw [hpmax, hmaxMonth] at hmonth
        cases hmonth
    · refine ⟨⟨last, hlast, ?_⟩, hmonth⟩
      rw [if_pos hname]
      exact List.mem_cons_self

theorem foldl_drops (dropped rows : List SchemaPartition) :
    (dropped.map fun p => Ddl.dropPartition table p.name).foldl applyDdl rows =
      rows.filter fun p => p.name ∉ dropped.map SchemaPartition.name := by
  induction dropped generalizing rows with
  | nil => simp
  | cons q dropped ih =>
    rw [List.map_cons, List.foldl_cons, ih]
    simp only [applyDdl, List.filter_filter, List.map_cons, List.mem_cons, not_or]
    apply List.filter_congr
    intro p _
    rw [Bool.eq_iff_iff]
    simp only [Bool.and_eq_true, decide_eq_true_eq]
    exact and_comm

theorem foldl_drops_of_subset (hnodup : (rows.map SchemaPartition.name).Nodup)
    (hdropped : ∀ p ∈ dropped, p ∈ rows) :
    (dropped.map fun p => Ddl.dropPartition table p.name).foldl applyDdl rows =
      rows.filter fun p => p ∉ dropped := by
  rw [foldl_drops]
  apply List.filter_congr
  intro p hp
  rw [decide_eq_decide, not_iff_not, List.mem_map]
  constructor
  · rintro ⟨q, hq, hname⟩
    rwa [← eq_of_name hnodup (hdropped q hq) hp hname]
  · intro hmem
    exact ⟨p, hmem, rfl⟩

end Names

section Layouts

variable {ans : Answers} {config : TableConfig} {now : Int} {p : SchemaPartition}

/-- The partitions of a table: their names differ, and one is `p_max`. -/
structure Layout where
  rows : List SchemaPartition
  names_nodup : (rows.map SchemaPartition.name).Nodup
  has_max : "p_max" ∈ rows.map SchemaPartition.name

theorem Layout.rows_ne_nil (l : Layout) : l.rows ≠ [] := by
  intro h
  have hmax := l.has_max
  rw [h] at hmax
  cases hmax

theorem grown_eq (ans : Answers) (config : TableConfig) (rows : List SchemaPartition) :
    grown ans config rows = rows ∨
    ∃ sql start next, Adds ans config rows sql start next ∧ grown ans config rows = applyDdl rows sql := by
  unfold grown
  cases hnext : nextAlter ans config rows with
  | none => exact Or.inl rfl
  | some sql =>
    obtain ⟨start, next, hsql⟩ := nextAlter_some hnext
    exact Or.inr ⟨sql, start, next, hsql, rfl⟩

theorem grown_names (ans : Answers) (config : TableConfig) (l : Layout) :
    ((grown ans config l.rows).map SchemaPartition.name).Nodup ∧
    "p_max" ∈ (grown ans config l.rows).map SchemaPartition.name := by
  rcases grown_eq ans config l.rows with h | ⟨sql, start, next, hsql, h⟩
  · rw [h]
    exact ⟨l.names_nodup, l.has_max⟩
  · rw [h, hsql.sql_eq]
    have hperm := names_applyDdl_add config.table (partitionNameFromBoundary start) (isoDate next)
      l.names_nodup l.has_max
    constructor
    · rw [hperm.nodup_iff, List.nodup_cons]
      refine ⟨?_, l.names_nodup⟩
      intro hmem
      obtain ⟨p, hp, hname⟩ := List.mem_map.1 hmem
      exact hsql.name_free p hp hname
    · rw [hperm.mem_iff]
      exact List.mem_cons_of_mem _ l.has_max

theorem mem_goneBy {rows : List SchemaPartition} (h : p ∈ goneBy ans config now rows) :
    p ∈ namedPartitions (grown ans config rows) := by
  unfold goneBy at h
  split at h
  · cases h
  · exact (List.takeWhile_sublist _).subset (List.mem_of_mem_filter h)

theorem rotated_rows (ans : Answers) (config : TableConfig) (now : Int) (dryRun : Bool) (l : Layout) :
    (rotationDdl ans config now dryRun l.rows).foldl applyDdl l.rows =
      if dryRun then l.rows else remaining ans config now l.rows := by
  cases dryRun with
  | true =>
    rw [rotationDdl_dryRun]
    rfl
  | false =>
    rw [rotationDdl_eq ans config now l.rows_ne_nil, List.foldl_append]
    exact foldl_drops_of_subset (grown_names ans config l).1
      fun p hp => (mem_namedPartitions.1 (mem_goneBy hp)).1

theorem remaining_names (l : Layout) :
    ((remaining ans config now l.rows).map SchemaPartition.name).Nodup ∧
      "p_max" ∈ (remaining ans config now l.rows).map SchemaPartition.name := by
  obtain ⟨hnodup, hmax⟩ := grown_names ans config l
  refine ⟨hnodup.sublist (List.filter_sublist.map _), ?_⟩
  obtain ⟨p, hp, hname⟩ := List.mem_map.1 hmax
  refine List.mem_map.2 ⟨p, List.mem_filter.2 ⟨hp, decide_eq_true ?_⟩, hname⟩
  intro hgone
  have hmonth := (mem_namedPartitions.1 (mem_goneBy hgone)).2
  rw [hname] at hmonth
  exact absurd hmonth (by decide)

/-- The layout after a rotation. -/
def Layout.rotated (l : Layout) (ans : Answers) (config : TableConfig) (now : Int) (dryRun : Bool) :
    Layout where
  rows := (rotationDdl ans config now dryRun l.rows).foldl applyDdl l.rows
  names_nodup := by
    rw [rotated_rows]
    cases dryRun
    · exact (remaining_names l).1
    · exact l.names_nodup
  has_max := by
    rw [rotated_rows]
    cases dryRun
    · exact (remaining_names l).2
    · exact l.has_max

theorem mem_gone {s : Session} {cutoff : Option Int} {rows : List SchemaPartition}
    (hnodup : (rows.map SchemaPartition.name).Nodup) :
    p ∈ gone s config cutoff rows ↔ p ∈ namedPartitions rows ∧ released s config cutoff p = true ∧
      ∀ q ∈ namedPartitions rows, textLe q.name.toList p.name.toList = true →
        stops s config cutoff q = false := by
  unfold gone
  rw [List.mem_filter, mem_takeWhile_of_pairwise
    (fun p q : SchemaPartition => textLe p.name.toList q.name.toList) (textLe_refl p.name.toList)
    (namedPartitions_pairwise hnodup)]
  simp only [Bool.not_eq_true', and_assoc]
  exact ⟨fun h => ⟨h.1, h.2.2, h.2.1⟩, fun h => ⟨h.1, h.2.2, h.2.1⟩⟩

/-- A second pass over what the first one left drops nothing: what the first kept was
held, or lies behind a partition that stops the loop. -/
theorem gone_filter {s : Session} {cutoff : Option Int} {rows : List SchemaPartition}
    (hnodup : (rows.map SchemaPartition.name).Nodup) :
    gone s config cutoff (rows.filter fun p => p ∉ gone s config cutoff rows) = [] := by
  obtain ⟨dropped, hdropped⟩ : ∃ dropped, dropped = gone s config cutoff rows := ⟨_, rfl⟩
  have hkept : ((rows.filter fun p => p ∉ dropped).map SchemaPartition.name).Nodup :=
    hnodup.sublist (List.filter_sublist.map _)
  have hnamed : ∀ q, q ∈ namedPartitions (rows.filter fun p => p ∉ dropped) ↔
      q ∈ namedPartitions rows ∧ q ∉ dropped := by
    intro q
    simp only [mem_namedPartitions, List.mem_filter, decide_eq_true_eq]
    exact and_right_comm
  rw [← hdropped, List.eq_nil_iff_forall_not_mem]
  intro p hp
  obtain ⟨hpnamed, hreleased, hfree⟩ := (mem_gone hkept).1 hp
  obtain ⟨hpnamed, hpkept⟩ := (hnamed p).1 hpnamed
  apply hpkept
  rw [hdropped]
  refine (mem_gone hnodup).2 ⟨hpnamed, hreleased, ?_⟩
  intro q hq hle
  cases hstops : stops s config cutoff q with
  | false => rfl
  | true =>
    have hqkept : q ∉ dropped := by
      intro hmem
      rw [hdropped] at hmem
      have hgoes := ((mem_gone hnodup).1 hmem).2.1
      rw [not_released_of_stops hstops] at hgoes
      cases hgoes
    have hnot := hfree q ((hnamed q).2 ⟨hq, hqkept⟩) hle
    rw [hstops] at hnot
    cases hnot

theorem goneBy_remaining (l : Layout)
    (hnext : nextAlter ans config (remaining ans config now l.rows) = none) :
    goneBy ans config now (remaining ans config now l.rows) = [] := by
  have hgrown : grown ans config (remaining ans config now l.rows) = remaining ans config now l.rows := by
    unfold grown
    rw [hnext]
    rfl
  cases hpast : pastCalendar ans l.rows with
  | true =>
    -- the exception kept the first run from adding and from dropping
    have hsame : grown ans config l.rows = l.rows := by
      unfold grown
      rw [(addNextPartition_pastCalendar config l.rows hpast).1]
      rfl
    have hrows : remaining ans config now l.rows = l.rows := by
      simp only [remaining, goneBy, hpast, if_true, hsame, List.not_mem_nil, not_false_eq_true,
        decide_true, List.filter_true]
    rw [hrows]
    simp only [goneBy, hpast, if_true]
  | false =>
    have hfirst : goneBy ans config now l.rows = gone (ans.session l.rows l.rows) config
        (retentionCutoff now config.retentionMonths) (grown ans config l.rows) := by
      simp only [goneBy, hpast, Bool.false_eq_true, if_false]
    unfold goneBy
    split
    · rfl
    · rw [hgrown]
      unfold remaining
      rw [hfirst]
      exact gone_filter (grown_names ans config l).1

theorem rotated_settles_iff (ans : Answers) (config : TableConfig) (now : Int) (dryRun : Bool)
    (l : Layout) : rotationDdl ans config now dryRun (l.rotated ans config now dryRun).rows = [] ↔
      dryRun = true ∨ nextAlter ans config (remaining ans config now l.rows) = none := by
  have hrows := rotated_rows ans config now dryRun l
  cases dryRun with
  | true =>
    rw [rotationDdl_dryRun]
    exact ⟨fun _ => Or.inl rfl, fun _ => rfl⟩
  | false =>
    rw [rotationDdl_eq ans config now (l.rotated ans config now false).rows_ne_nil]
    change (l.rotated ans config now false).rows = remaining ans config now l.rows at hrows
    rw [hrows]
    constructor
    · intro h
      refine Or.inr ?_
      have hnone := (List.append_eq_nil_iff.1 h).1
      cases hnext : nextAlter ans config (remaining ans config now l.rows) with
      | none => rfl
      | some sql =>
        rw [hnext] at hnone
        cases hnone
    · intro h
      have hnext := h.resolve_left Bool.false_ne_true
      rw [goneBy_remaining l hnext, hnext]
      rfl

end Layouts

end Partition

end Vici2
