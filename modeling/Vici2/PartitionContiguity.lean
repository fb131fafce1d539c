import Vici2.PartitionRepeats

/-! Runs of rotations over contiguous months: an addition continues the months, and only
the drops can leave one out. -/

namespace Vici2

namespace Partition

open IsoTime JsDate

def HasMonth (rows : List SchemaPartition) (m : Int) : Prop :=
  ∃ p ∈ namedPartitions rows, IsMonth p m

/-- The named partitions are those of contiguous months. -/
structure Contiguous (rows : List SchemaPartition) : Prop where
  months : ∀ p ∈ namedPartitions rows, ∃ m, IsMonth p m
  between : ∀ a b m, HasMonth rows a → HasMonth rows b → a ≤ m → m ≤ b → HasMonth rows m

/-- No partition goes between two that stay. -/
def NoGap (rows dropped : List SchemaPartition) : Prop :=
  ∀ p ∈ namedPartitions rows, ∀ q ∈ namedPartitions rows, ∀ r ∈ namedPartitions rows,
    textLe p.name.toList q.name.toList = true → textLe q.name.toList r.name.toList = true →
      q ∈ dropped → p ∈ dropped ∨ r ∈ dropped

instance (rows dropped : List SchemaPartition) : Decidable (NoGap rows dropped) :=
  inferInstanceAs (Decidable (∀ p ∈ namedPartitions rows, ∀ q ∈ namedPartitions rows,
    ∀ r ∈ namedPartitions rows, _ → _ → _ → _))

section Months

variable {ans : Answers} {config : TableConfig} {rows dropped : List SchemaPartition}
  {p q : SchemaPartition} {a b m : Int}

theorem IsMonth.unique (ha : IsMonth p a) (hb : IsMonth p b) : a = b := by
  have h1 := ha.le_of_textLe hb (textLe_refl _)
  have h2 := hb.le_of_textLe ha (textLe_refl _)
  omega

theorem IsMonth.eq_of_mem (hnodup : (rows.map SchemaPartition.name).Nodup)
    (hp : p ∈ namedPartitions rows) (hq : q ∈ namedPartitions rows) (hpm : IsMonth p m)
    (hqm : IsMonth q m) : p = q :=
  eq_of_name hnodup (mem_namedPartitions.1 hp).1 (mem_namedPartitions.1 hq).1
    (hpm.name.trans hqm.name.symm)

theorem mem_named_filter : p ∈ namedPartitions (rows.filter fun p => p ∉ dropped) ↔
    p ∈ namedPartitions rows ∧ p ∉ dropped := by
  simp only [mem_namedPartitions, List.mem_filter, decide_eq_true_eq]
  exact and_right_comm

/-- What stays of contiguous months is contiguous exactly if nothing goes in between. -/
theorem contiguous_filter_iff (hnodup : (rows.map SchemaPartition.name).Nodup) (h : Contiguous rows) :
    Contiguous (rows.filter fun p => p ∉ dropped) ↔ NoGap rows dropped := by
  constructor
  · intro hkept p hp q hq r hr hpq hqr hgone
    by_contra hstay
    rw [not_or] at hstay
    obtain ⟨a, ha⟩ := h.months p hp
    obtain ⟨m, hm⟩ := h.months q hq
    obtain ⟨b, hb⟩ := h.months r hr
    have hmonth := hkept.between a b m ⟨p, mem_named_filter.2 ⟨hp, hstay.1⟩, ha⟩
      ⟨r, mem_named_filter.2 ⟨hr, hstay.2⟩, hb⟩ (ha.le_of_textLe hm hpq) (hm.le_of_textLe hb hqr)
    obtain ⟨q', hq', hm'⟩ := hmonth
    obtain ⟨hq', hstays⟩ := mem_named_filter.1 hq'
    rw [IsMonth.eq_of_mem hnodup hq' hq hm' hm] at hstays
    exact hstays hgone
  · intro hgap
    constructor
    · intro p hp
      exact h.months p (mem_named_filter.1 hp).1
    · rintro a b m ⟨p, hp, ha⟩ ⟨r, hr, hb⟩ ham hmb
      obtain ⟨hp, hpstays⟩ := mem_named_filter.1 hp
      obtain ⟨hr, hrstays⟩ := mem_named_filter.1 hr
      obtain ⟨q, hq, hm⟩ := h.between a b m ⟨p, hp, ha⟩ ⟨r, hr, hb⟩ ham hmb
      refine ⟨q, mem_named_filter.2 ⟨hq, ?_⟩, hm⟩
      intro hgone
      rcases hgap p hp q hq r hr (ha.textLe_of_le hm ham) (hm.textLe_of_le hb hmb) hgone with h | h
      · exact hpstays h
      · exact hrstays h

/-- The newest partition is that of the last month. -/
theorem le_newest (hlast : (namedPartitions rows).getLast? = some p) (hp : IsMonth p m)
    (ha : HasMonth rows a) : a ≤ m := by
  obtain ⟨q, hq, hqa⟩ := ha
  exact hqa.le_of_textLe hp (newest_max hlast hq)

/-- One month more behind the last one. -/
theorem contiguous_applyDdl_add (hmax : "p_max" ∈ rows.map SchemaPartition.name)
    {table : String} {lessThan : List Char} {name : String} (h : Contiguous rows)
    (hnew : IsMonth ⟨name, quoted lessThan⟩ m)
    (hnext : ∀ a, HasMonth rows a → a < m ∧ HasMonth rows (m - 1)) :
    Contiguous (applyDdl rows (.addPartition table name lessThan)) := by
  have hbounds := hnew.four_digits
  have hnamed : namedMonth name.toList = true := by
    have hname : name = monthName m := hnew.name
    rw [hname]
    exact namedMonth_monthName (by omega)
  have hmonth : ∀ a, HasMonth (applyDdl rows (.addPartition table name lessThan)) a ↔
      HasMonth rows a ∨ a = m := by
    intro a
    constructor
    · rintro ⟨p, hp, ha⟩
      rcases (mem_named_applyDdl_add hmax).1 hp with hp | ⟨rfl, -⟩
      · exact Or.inl ⟨p, hp, ha⟩
      · exact Or.inr (ha.unique hnew)
    · rintro (⟨p, hp, ha⟩ | rfl)
      · exact ⟨p, (mem_named_applyDdl_add hmax).2 (Or.inl hp), ha⟩
      · exact ⟨_, (mem_named_applyDdl_add hmax).2 (Or.inr ⟨rfl, hnamed⟩), hnew⟩
  constructor
  · intro p hp
    rcases (mem_named_applyDdl_add hmax).1 hp with hp | ⟨rfl, -⟩
    · exact h.months p hp
    · exact ⟨m, hnew⟩
  · intro a b k ha hb hak hkb
    rw [hmonth] at ha hb ⊢
    by_cases hk : k = m
    · exact Or.inr hk
    · left
      rcases ha with ha | rfl
      · rcases hb with hb | rfl
        · exact h.between a b k ha hb hak hkb
        · exact h.between a (b - 1) k ha (hnext a ha).2 hak (by omega)
      · rcases hb with hb | rfl
        · have := (hnext b hb).1
          omega
        · omega

/-- An addition that starts with a month adds the partition of that month. -/
theorem Adds.isMonth {sql : Ddl} {start next : Int} (h : Adds ans config rows sql start next)
    (hstart : start = monthDay m * msPerDay) (hm : 12000 ≤ m) :
    sql = .addPartition config.table (monthName m) (dateText (monthDay (m + 1))) ∧
      IsMonth ⟨monthName m, quoted (dateText (monthDay (m + 1)))⟩ m := by
  subst hstart
  have hnext : next = monthDay (m + 1) * msPerDay := by
    have hclip := h.next_eq
    rw [addMonths_monthDay] at hclip
    unfold timeClip at hclip
    split at hclip
    · exact (Option.some.inj hclip).symm
    · cases hclip
  have haccepted := h.accepted
  rw [h.sql_eq] at haccepted
  obtain ⟨day, -, hday⟩ := ans.bound_date _ _ _ haccepted
  have hyear := isoDate_eq_dateText hday
  rw [hnext, year_monthDay] at hyear
  have htext : isoDate next = dateText (monthDay (m + 1)) := by
    rw [hnext, isoDate_day]
    rw [civil_monthDay]
    exact hyear
  constructor
  · rw [h.sql_eq, htext]
    rfl
  · refine isMonth_of_bound ⟨hm, by omega⟩ rfl ?_
    unfold quoted
    exact String.toList_ofList

theorem contiguous_grown (l : Layout) (h : Contiguous l.rows) : Contiguous (grown ans config l.rows) := by
  rcases grown_eq ans config l.rows with hgrown | ⟨sql, start, next, hadds, hgrown⟩
  · rw [hgrown]
    exact h
  · rw [hgrown]
    have hstart := hadds.start_eq
    unfold nextMonth at hstart
    cases hlast : (namedPartitions l.rows).getLast? with
    | none =>
      have hempty := List.getLast?_eq_none_iff.1 hlast
      rw [hlast] at hstart
      dsimp only at hstart
      rw [firstOfMonth_now ans.today_valid.1 ans.today_valid.2, ← monthDay_add] at hstart
      have hyear := year_of_nonneg ans.today_valid.1
      have hmonth := (civil_month_day (ans.today / msPerDay)).1.1
      obtain ⟨hsql, hnew⟩ := hadds.isMonth (Option.some.inj hstart).symm (by unfold month; omega)
      rw [hsql]
      refine contiguous_applyDdl_add l.has_max h hnew ?_
      rintro a ⟨p, hp, -⟩
      rw [hempty] at hp
      cases hp
    | some newest =>
      have hmem := List.mem_of_getLast? hlast
      obtain ⟨k, hk⟩ := h.months newest hmem
      rw [hlast] at hstart
      dsimp only at hstart
      rw [hk.parsed] at hstart
      have hdigits := hk.four_digits
      obtain ⟨hsql, hnew⟩ := hadds.isMonth (Option.some.inj hstart).symm (by omega)
      rw [hsql]
      refine contiguous_applyDdl_add l.has_max h hnew ?_
      intro a ha
      have hle := le_newest hlast hk ha
      rw [Int.add_sub_cancel]
      exact ⟨by omega, newest, hmem, hk⟩

/-- Behind contiguous months the next one is never there already: as long as the database
accepts it, every rotation adds a month, whatever the time. -/
theorem contiguous_adds (h : Contiguous rows) (hlast : (namedPartitions rows).getLast? = some p)
    (hp : IsMonth p m) (hm : m + 1 < 119999)
    (haccepts : ans.execute (.addPartition config.table (monthName (m + 1))
      (dateText (monthDay (m + 1 + 1)))) = .ok ()) :
    nextAlter ans config rows = some (.addPartition config.table (monthName (m + 1))
      (dateText (monthDay (m + 1 + 1)))) := by
  have hdigits := hp.four_digits
  have hstart : nextMonth ans rows = some (monthDay (m + 1) * msPerDay) := by
    unfold nextMonth
    rw [hlast]
    exact hp.parsed ans.fallback
  have hnext : addMonths (some (monthDay (m + 1) * msPerDay)) 1 =
      some (monthDay (m + 1 + 1) * msPerDay) := by
    obtain ⟨h0, h1⟩ := @monthDay_bounds (m + 1 + 1) (by omega)
    rw [addMonths_monthDay, timeClip_day (by omega) h1]
  have htext : isoDate (monthDay (m + 1 + 1) * msPerDay) = dateText (monthDay (m + 1 + 1)) := by
    rw [isoDate_day]
    rw [civil_monthDay]
    dsimp only
    omega
  have hfree : ¬ (rows.any fun p => p.name = partitionNameFromBoundary
      (monthDay (m + 1) * msPerDay)) = true := by
    rw [Bool.not_eq_true, List.any_eq_false]
    intro q hq hname
    have hname : q.name = monthName (m + 1) := of_decide_eq_true hname
    have hnamed : q ∈ namedPartitions rows := by
      refine mem_namedPartitions.2 ⟨hq, ?_⟩
      rw [hname]
      exact namedMonth_monthName (by omega)
    obtain ⟨k, hk⟩ := h.months q hnamed
    have hle := le_newest hlast hp ⟨q, hnamed, hk⟩
    have hkdigits := hk.four_digits
    have hsame := monthName_inj (by omega) (by omega) (hk.name.symm.trans hname)
    omega
  unfold nextAlter
  rw [hstart, Option.bind_some, hnext, Option.bind_some]
  dsimp only
  rw [htext, if_neg hfree]
  unfold monthName at haccepts ⊢
  rw [haccepts]

end Months

/-- One run of the rotation: what answers, the time, and whether it only plans. -/
structure Rotation where
  ans : Answers
  now : Int
  dryRun : Bool

def Layout.rotate (config : TableConfig) (l : Layout) (r : Rotation) : Layout :=
  l.rotated r.ans config r.now r.dryRun

/-- The rotation lets no partition go between two that stay. -/
def Rotation.NoGap (config : TableConfig) (l : Layout) (r : Rotation) : Prop :=
  r.dryRun = true ∨
    Partition.NoGap (grown r.ans config l.rows) (goneBy r.ans config r.now l.rows)

theorem contiguous_rotate_iff (config : TableConfig) (l : Layout) (r : Rotation)
    (h : Contiguous l.rows) : Contiguous (l.rotate config r).rows ↔ r.NoGap config l := by
  have hrows := rotated_rows r.ans config r.now r.dryRun l
  unfold Rotation.NoGap
  change (l.rotate config r).rows = _ at hrows
  rw [hrows]
  cases hdry : r.dryRun with
  | true => exact ⟨fun _ => Or.inl rfl, fun _ => h⟩
  | false =>
    have hiff := @contiguous_filter_iff _ (goneBy r.ans config r.now l.rows)
      (grown_names r.ans config l).1 (contiguous_grown l h)
    constructor
    · intro hkept
      exact Or.inr (hiff.1 hkept)
    · intro hgap
      exact hiff.2 (hgap.resolve_left Bool.false_ne_true)

theorem rotation_settles_and_contiguous_iff (config : TableConfig) (l : Layout) :
    (∀ ans now dryRun, rotationDdl ans config now dryRun (l.rotated ans config now dryRun).rows = [] ↔
      dryRun = true ∨ nextAlter ans config (remaining ans config now l.rows) = none) ∧
      (Contiguous l.rows → ∀ runs,
        Always (Layout.rotate config) (fun l => Contiguous l.rows) l runs ↔
          EachStep (Layout.rotate config) (fun l r => r.NoGap config l) l runs) := by
  constructor
  · intro ans now dryRun
    exact rotated_settles_iff ans config now dryRun l
  · intro h runs
    exact @always_iff_eachStep _ _ _ _ (fun _ => True) _ (fun _ _ _ _ _ => trivial)
      (fun l r _ hl => contiguous_rotate_iff config l r hl) l runs trivial h

/-- A database that takes every date of the calendar. -/
def dateDatabase : Ddl → Except String Unit
  | .dropPartition _ _ => .ok ()
  | .addPartition _ _ lessThan =>
    match parseDay lessThan with
    | none => .error "Incorrect DATE value"
    | some day =>
      if (0 ≤ (civil day).1 ∧ (civil day).1 ≤ 9999) ∧ lessThan = dateText day then .ok ()
      else .error "Incorrect DATE value"

theorem dateDatabase_bound {table name : String} {lessThan : List Char}
    (h : dateDatabase (.addPartition table name lessThan) = .ok ()) :
    ∃ day, (0 ≤ (civil day).1 ∧ (civil day).1 ≤ 9999) ∧ lessThan = dateText day := by
  unfold dateDatabase at h
  dsimp only at h
  split at h
  · cases h
  · next day _ =>
    split at h
    · next hday => exact ⟨day, hday⟩
    · cases h

/-- In May 2026, with the attestations `rows`. -/
def accepting (rows : List AttestationRow) : Answers where
  today := may2026
  attestations := .ok rows
  diskFree := fun _ => .ok ()
  execute := dateDatabase
  fallback := fun _ => none
  today_valid := by decide
  bound_date := fun _ _ _ => dateDatabase_bound

/-- The user of the database may not alter the table. -/
def refusing : Answers where
  today := may2026
  attestations := .ok []
  diskFree := fun _ => .ok ()
  execute := fun _ => .error "ALTER command denied"
  fallback := fun _ => none
  today_valid := by decide
  bound_date := by
    intro table name lessThan h
    cases h

def mayLayout : Layout where
  rows := [⟨"p_2026_05", "'2026-06-01'"⟩, ⟨"p_max", "MAXVALUE"⟩]
  names_nodup := by decide
  has_max := by decide

/-- March and April 2019, both past the retention in May 2026. -/
def springLayout : Layout where
  rows := [⟨"p_2019_03", "'2019-04-01'"⟩, ⟨"p_2019_04", "'2019-05-01'"⟩, ⟨"p_max", "MAXVALUE"⟩]
  names_nodup := by decide
  has_max := by decide

theorem year_of_april : 0 ≤ (civil 18016).1 ∧ (civil 18016).1 ≤ 9999 := by decide

def aprilAttestation : AttestationRow :=
  ⟨1, "audit_log", 18016, some "root", some "key", year_of_april⟩

def marchAttestation : AttestationRow :=
  ⟨1, "audit_log", 17986, some "root", some "key", by decide⟩

theorem months_of_spring : ∀ p ∈ namedPartitions springLayout.rows,
    (p = ⟨"p_2019_03", "'2019-04-01'"⟩ ∧ IsMonth p 24230) ∨
      (p = ⟨"p_2019_04", "'2019-05-01'"⟩ ∧ IsMonth p 24231) := by
  have hmarch : IsMonth ⟨"p_2019_03", "'2019-04-01'"⟩ 24230 :=
    ⟨by decide, by decide, by decide, by decide, Or.inr (by decide)⟩
  have hapril : IsMonth ⟨"p_2019_04", "'2019-05-01'"⟩ 24231 :=
    ⟨by decide, by decide, by decide, by decide, Or.inr (by decide)⟩
  have hnamed : namedPartitions springLayout.rows =
      [⟨"p_2019_03", "'2019-04-01'"⟩, ⟨"p_2019_04", "'2019-05-01'"⟩] := by decide
  intro p hp
  rw [hnamed] at hp
  simp only [List.mem_cons, List.not_mem_nil, or_false] at hp
  rcases hp with rfl | rfl
  · exact Or.inl ⟨rfl, hmarch⟩
  · exact Or.inr ⟨rfl, hapril⟩

theorem contiguous_spring : Contiguous springLayout.rows := by
  have hmonth : ∀ a, HasMonth springLayout.rows a → a = 24230 ∨ a = 24231 := by
    rintro a ⟨p, hp, ha⟩
    rcases months_of_spring p hp with ⟨-, hm⟩ | ⟨-, hm⟩
    · exact Or.inl (ha.unique hm)
    · exact Or.inr (ha.unique hm)
  constructor
  · intro p hp
    rcases months_of_spring p hp with ⟨-, hm⟩ | ⟨-, hm⟩
    · exact ⟨_, hm⟩
    · exact ⟨_, hm⟩
  · intro a b m ha hb ham hmb
    have ha' := hmonth a ha
    have hb' := hmonth b hb
    by_cases hma : m = a
    · rw [hma]
      exact ha
    · have hmb' : m = b := by omega
      rw [hmb']
      exact hb

instance (config : TableConfig) (l : Layout) (r : Rotation) : Decidable (r.NoGap config l) :=
  inferInstanceAs (Decidable (_ ∨ _))

theorem spring_settles_and_stays_contiguous :
    (nextAlter refusing ⟨"audit_log", "ts", 84, true⟩
        (remaining refusing ⟨"audit_log", "ts", 84, true⟩ may2026 springLayout.rows) = none ∧
      Contiguous springLayout.rows ∧ EachStep (Layout.rotate ⟨"audit_log", "ts", 84, true⟩)
        (fun l r => r.NoGap ⟨"audit_log", "ts", 84, true⟩ l) springLayout
        [⟨accepting [marchAttestation], may2026, false⟩,
          ⟨accepting [marchAttestation, aprilAttestation], may2026, false⟩]) ∧
      rotationDdl refusing ⟨"audit_log", "ts", 84, true⟩ may2026 false
        (springLayout.rotated refusing ⟨"audit_log", "ts", 84, true⟩ may2026 false).rows = [] ∧
      Always (Layout.rotate ⟨"audit_log", "ts", 84, true⟩) (fun l => Contiguous l.rows) springLayout
        [⟨accepting [marchAttestation], may2026, false⟩,
          ⟨accepting [marchAttestation, aprilAttestation], may2026, false⟩] := by
  have hnext : nextAlter refusing ⟨"audit_log", "ts", 84, true⟩
      (remaining refusing ⟨"audit_log", "ts", 84, true⟩ may2026 springLayout.rows) = none := by
    decide
  have hsteps : EachStep (Layout.rotate ⟨"audit_log", "ts", 84, true⟩)
      (fun l r => r.NoGap ⟨"audit_log", "ts", 84, true⟩ l) springLayout
      [⟨accepting [marchAttestation], may2026, false⟩,
        ⟨accepting [marchAttestation, aprilAttestation], may2026, false⟩] := by
    decide
  obtain ⟨hsettles, hruns⟩ :=
    rotation_settles_and_contiguous_iff ⟨"audit_log", "ts", 84, true⟩ springLayout
  exact ⟨⟨hnext, contiguous_spring, hsteps⟩, (hsettles refusing may2026 false).2 (Or.inr hnext),
    (hruns contiguous_spring _).2 hsteps⟩

/-- Run again at the same time, the call log gets the month after next; with March held
by its gate and April let go, the audit log goes from March to May. -/
theorem second_run_adds_and_gate_leaves_gap :
    (¬ ∀ config ∈ tableRegistry, ∀ (ans : Answers) (now : Int) (dryRun : Bool) (l : Layout),
      rotationDdl ans config now dryRun (l.rotated ans config now dryRun).rows = []) ∧
      ¬ ∀ config ∈ tableRegistry, ∀ (l : Layout) (runs : List Rotation), Contiguous l.rows →
        Always (Layout.rotate config) (fun l => Contiguous l.rows) l runs := by
  constructor
  · intro h
    exact absurd (h ⟨"call_log", "call_started", 48, false⟩ (by decide) (accepting []) may2026 false
      mayLayout) (by decide)
  · intro h
    have hrun := (h ⟨"audit_log", "ts", 84, true⟩ (by decide) springLayout
      [⟨accepting [aprilAttestation], may2026, false⟩] contiguous_spring).last
    exact absurd ((contiguous_rotate_iff _ _ _ contiguous_spring).1 hrun) (by decide)

end Partition

end Vici2
