import Mathlib.Tactic.IntervalCases
import Vici2.PartitionRotator

/-! Which partitions the rotator drops: those that end before the retention starts, and
of a gated table only after an attestation for their last day. -/

namespace Vici2

namespace Partition

open IsoTime JsDate

/-- The first day of the month of `now`, the retention months earlier. -/
def retentionStart (now retentionMonths : Int) : Int :=
  makeDay (year now) (month now - retentionMonths) 1 * msPerDay

/-- The description is the date `day`, quoted or not. -/
def DateBound (description : String) (day : Int) : Prop :=
  1 ≤ (civil day).1 ∧ (civil day).1 ≤ 9999 ∧
    (description.toList = dateText day ∨
      description.toList = Char.ofNat 39 :: (dateText day ++ [Char.ofNat 39]))

/-- What the rotator has checked of a partition that it drops. -/
structure DropChecked (s : Session) (config : TableConfig) (cutoff : Option Int)
    (p : SchemaPartition) (upperBound : Int) : Prop where
  parsed : parsePartitionBoundary s.fallback p.description = some upperBound
  expired : afterCutoff upperBound cutoff = false
  attested : config.requireAttestation = true → ∃ rows text, s.attestations = .ok rows ∧
    lastDayOfWindow s.fallback (isoDate upperBound) = .ok text ∧
      ∃ a ∈ rows, a.matches config.table text

section Drops

variable {s : Session} {config : TableConfig} {cutoff : Option Int} {dryRun : Bool}
  {p : SchemaPartition} {table name : String}

theorem checkAttestation_ok {attestations : Except String (List AttestationRow)} {text : List Char}
    (h : checkAttestation attestations table text = .ok ()) :
    ∃ rows, attestations = .ok rows ∧ ∃ a ∈ rows, a.matches table text := by
  unfold checkAttestation at h
  split at h
  · next rows =>
    split at h
    · next hcount =>
      obtain ⟨a, ha, hmatches⟩ := List.countP_pos_iff.1 hcount
      exact ⟨rows, rfl, a, ha, of_decide_eq_true hmatches⟩
    · cases h
  · split at h
    · cases h
    · cases h

theorem attestationGate_ok {boundaryDate : List Char}
    (h : attestationGate s config boundaryDate = .ok (.ok ())) (hgated : config.requireAttestation = true) :
    ∃ rows text, s.attestations = .ok rows ∧ lastDayOfWindow s.fallback boundaryDate = .ok text ∧
      ∃ a ∈ rows, a.matches config.table text := by
  unfold attestationGate at h
  rw [if_pos hgated] at h
  split at h
  · cases h
  · next text htext =>
    obtain ⟨rows, hrows, hmatches⟩ := checkAttestation_ok (Except.ok.inj h)
    exact ⟨rows, text, hrows, htext, hmatches⟩

theorem dropPartition_checked {results : List PartitionResult} {ddl : List Ddl}
    (h : dropPartition s config cutoff dryRun p = .ok (results, ddl))
    (hdrop : .dropPartition table name ∈ ddl) :
    table = config.table ∧ name = p.name ∧ ∃ upperBound, DropChecked s config cutoff p upperBound := by
  unfold dropPartition at h
  split at h
  · cases h
    cases hdrop
  · next upperBound hparsed =>
    split at h
    · cases h
      cases hdrop
    · next hexpired =>
      dsimp only at h
      split at h
      · cases h
      · cases h
        cases hdrop
      · next hgate =>
        split at h
        · cases h
          cases hdrop
        · split at h
          · cases h
            cases hdrop
          · split at h
            · cases h
              cases hdrop
            · cases h
              obtain ⟨rfl, rfl⟩ := Ddl.dropPartition.inj (List.mem_singleton.1 hdrop)
              exact ⟨rfl, rfl, upperBound, hparsed, Bool.eq_false_iff.2 hexpired,
                attestationGate_ok hgate⟩

theorem dropPartitions_checked {ps : List SchemaPartition}
    (hdrop : .dropPartition table name ∈ (dropPartitions s config cutoff dryRun ps).2) :
    table = config.table ∧ ∃ p ∈ ps, name = p.name ∧
      ∃ upperBound, DropChecked s config cutoff p upperBound := by
  induction ps with
  | nil => cases hdrop
  | cons p ps ih =>
    unfold dropPartitions at hdrop
    split at hdrop
    · cases hdrop
    · next results ddl hp =>
      rcases List.mem_append.1 hdrop with hdrop | hdrop
      · obtain ⟨htable, hname, hchecked⟩ := dropPartition_checked hp hdrop
        exact ⟨htable, p, List.mem_cons_self, hname, hchecked⟩
      · obtain ⟨htable, q, hq, hchecked⟩ := ih hdrop
        exact ⟨htable, q, List.mem_cons_of_mem _ hq, hchecked⟩

theorem addNextPartition_adds {partitions : List SchemaPartition} {result : PartitionResult}
    {ddl : List Ddl} (h : addNextPartition s config partitions dryRun = .ok (result, ddl)) :
    .dropPartition table name ∉ ddl := by
  unfold addNextPartition at h
  dsimp only at h
  repeat' split at h
  all_goals
    cases h
  all_goals simp

/-- A partition of the table as it was read, at the start or after an addition. -/
def Session.Lists (s : Session) (p : SchemaPartition) : Prop :=
  ∃ rows, (s.partitions = some rows ∨ s.refreshed = some rows) ∧ p ∈ rows

theorem fetchPartitions_some {rows : Option (List SchemaPartition)} {partitions : List SchemaPartition}
    (h : fetchPartitions rows = some partitions) : rows = some partitions := by
  unfold fetchPartitions at h
  exact (Option.filter_eq_some_iff.1 h).1

theorem rotateTable_checked {now : Int}
    (hdrop : .dropPartition table name ∈ (rotateTable s config now dryRun).2) :
    table = config.table ∧ ∃ p, s.Lists p ∧ name = p.name ∧
      ∃ upperBound, DropChecked s config (retentionCutoff now config.retentionMonths) p upperBound := by
  have hcurrent : ∀ partitions (addResult : PartitionResult),
      fetchPartitions s.partitions = some partitions → ∀ p ∈ namedPartitions
        (if addResult.action = .add then (fetchPartitions s.refreshed).getD partitions
          else partitions), s.Lists p := by
    intro partitions addResult hfetch p hp
    have hstart := fetchPartitions_some hfetch
    unfold namedPartitions at hp
    rw [List.mem_insertionSort] at hp
    have hmem := List.mem_of_mem_filter hp
    split at hmem
    · cases hrefresh : fetchPartitions s.refreshed with
      | none =>
        rw [hrefresh] at hmem
        exact ⟨partitions, Or.inl hstart, hmem⟩
      | some rows =>
        rw [hrefresh] at hmem
        exact ⟨rows, Or.inr (fetchPartitions_some hrefresh), hmem⟩
    · exact ⟨partitions, Or.inl hstart, hmem⟩
  unfold rotateTable at hdrop
  dsimp only at hdrop
  split at hdrop
  · cases hdrop
  · next partitions hfetch =>
    split at hdrop
    · cases hdrop
    · next addResult added hadd =>
      have hdropped : .dropPartition table name ∈ (dropExpiredPartitions s config
          (if addResult.action = .add then (fetchPartitions s.refreshed).getD partitions
            else partitions) now dryRun).2 := by
        split at hdrop
        · next e dropped hloop =>
          rw [hloop]
          exact (List.mem_append.1 hdrop).resolve_left (addNextPartition_adds hadd)
        · next results dropped hloop =>
          rw [hloop]
          exact (List.mem_append.1 hdrop).resolve_left (addNextPartition_adds hadd)
      obtain ⟨htable, p, hp, hchecked⟩ := dropPartitions_checked hdropped
      exact ⟨htable, p, hcurrent partitions addResult hfetch p hp, hchecked⟩

end Drops

theorem firstOfMonth_now {now : Int} (h0 : 0 ≤ now) (h1 : now ≤ maxTime) :
    firstOfMonth (year now) (month now + 1) =
      some (makeDay (year now) (month now) 1 * msPerDay) := by
  have hyear : ¬ (0 ≤ year now ∧ year now ≤ 99) := by
    have hz : 0 ≤ now / msPerDay := Int.ediv_nonneg h0 (by decide)
    have hdoe : 0 ≤ (now / msPerDay + 719468) % 146097 ∧
        (now / msPerDay + 719468) % 146097 ≤ 146096 := by omega
    have hyoe := yearOfEra_bounds hdoe.1 hdoe.2
    unfold year
    rw [civil_eq]
    dsimp only
    split <;> omega
  obtain ⟨-, hdate⟩ := civil_month_day (now / msPerDay)
  unfold firstOfMonth utc
  rw [if_neg hyear, Int.add_sub_cancel]
  unfold timeClip
  rw [if_pos]
  rw [makeDay_month_start]
  unfold date
  unfold maxTime msPerDay at *
  omega

theorem retentionCutoff_eq {now : Int} (h0 : 0 ≤ now) (h1 : now ≤ maxTime) (retentionMonths : Int) :
    retentionCutoff now retentionMonths = timeClip (retentionStart now retentionMonths) := by
  unfold retentionCutoff addMonths retentionStart
  rw [firstOfMonth_now h0 h1, Option.bind_some, setUTCMonth_month_start, Int.sub_eq_add_neg]

section DateBounds

variable {day : Int}

theorem timeClip_day (h0 : -719468 ≤ day) (h1 : day ≤ 2932896) :
    timeClip (day * msPerDay) = some (day * msPerDay) := by
  unfold timeClip maxTime msPerDay
  rw [if_pos (by omega)]

theorem dateText_ends (day : Int) : ∃ a b mid, a < 10 ∧ b < 10 ∧
    dateText day = Nat.digitChar a :: (mid ++ [Nat.digitChar b]) := by
  obtain ⟨y, m, d, hc⟩ : ∃ y m d, civil day = (y, m, d) := ⟨_, _, _, rfl⟩
  obtain ⟨rest, hyear⟩ : ∃ rest, fixedDigits 4 y.toNat = Nat.digitChar (y.toNat / 1000 % 10) :: rest :=
    ⟨_, rfl⟩
  have hday := fixedDigits_succ 1 d.toNat
  refine ⟨y.toNat / 1000 % 10, d.toNat % 10,
    rest ++ ('-' :: fixedDigits 2 m.toNat) ++ ('-' :: fixedDigits 1 (d.toNat / 10)),
    Nat.mod_lt _ (by decide), Nat.mod_lt _ (by decide), ?_⟩
  unfold dateText
  rw [hc]
  dsimp only
  rw [hday, hyear]
  simp only [List.cons_append, List.append_assoc]

theorem digitChar_plain {a : Nat} (ha : a < 10) :
    (Nat.digitChar a).toNat ≠ 39 ∧ (Nat.digitChar a).toNat ∉ whiteSpace := by
  interval_cases a <;> decide

theorem stripQuotes_dateText (day : Int) :
    stripQuotes (dateText day) = dateText day ∧
      stripQuotes (Char.ofNat 39 :: (dateText day ++ [Char.ofNat 39])) = dateText day := by
  obtain ⟨a, b, mid, ha, hb, htext⟩ := dateText_ends day
  obtain ⟨hquote, -⟩ := digitChar_plain ha
  obtain ⟨hquote', -⟩ := digitChar_plain hb
  have h39 : (Char.ofNat 39).toNat = 39 := rfl
  constructor
  · unfold stripQuotes
    rw [htext]
    simp [stripLeadingQuote, hquote, hquote']
  · unfold stripQuotes
    simp [stripLeadingQuote, h39]

theorem trim_dateText (day : Int) : trim (dateText day) = dateText day := by
  obtain ⟨a, b, mid, ha, hb, htext⟩ := dateText_ends day
  obtain ⟨-, hblank⟩ := digitChar_plain ha
  obtain ⟨-, hblank'⟩ := digitChar_plain hb
  unfold trim
  rw [htext]
  simp [hblank, hblank']

theorem parse_dateBound (fallback : List Char → Option Int) {description : String}
    (h : DateBound description day) :
    parsePartitionBoundary fallback description = some (day * msPerDay) := by
  obtain ⟨hy0, hy1, htext⟩ := h
  obtain ⟨hplain, hquoted⟩ := stripQuotes_dateText day
  obtain ⟨hd0, hd1⟩ := day_bounds ⟨hy0, hy1⟩
  have hclean : trim (stripQuotes description.toList) = dateText day := by
    rcases htext with htext | htext
    · rw [htext, hplain, trim_dateText]
    · rw [htext, hquoted, trim_dateText]
  have hlength := length_dateText day
  unfold parsePartitionBoundary
  dsimp only
  rw [hclean, if_neg, parseMidnight_of_day (parseDay_dateText (by omega) hy1), timeClip_day (by omega) hd1]
  rintro (hmax | hempty)
  · have := congrArg List.length hmax
    rw [List.length_map, hlength] at this
    exact absurd this (by decide)
  · rw [hempty] at hlength
    cases hlength

theorem isoDate_day (h : 0 ≤ (civil day).1 ∧ (civil day).1 ≤ 9999) :
    isoDate (day * msPerDay) = dateText day := by
  have hday : day * msPerDay / msPerDay = day := Int.mul_ediv_cancel _ (by decide)
  unfold isoDate year
  rw [hday]
  exact if_pos h

theorem lastDayOfWindow_day (fallback : List Char → Option Int)
    (h : 1 ≤ (civil day).1 ∧ (civil day).1 ≤ 9999) :
    lastDayOfWindow fallback (isoDate (day * msPerDay)) = .ok (dateText (day - 1)) := by
  obtain ⟨hd0, hd1⟩ := day_bounds h
  have hday : day * msPerDay / msPerDay = day := Int.mul_ediv_cancel _ (by decide)
  have hstart := makeDay_month_start (day * msPerDay)
  have hset : setUTCDate (day * msPerDay) (date (day * msPerDay) - 1) =
      some ((day - 1) * msPerDay) := by
    have hmake : makeDay (year (day * msPerDay)) (month (day * msPerDay))
        (date (day * msPerDay) - 1) = day - 1 := by
      unfold makeDay at hstart ⊢
      omega
    unfold setUTCDate
    rw [hmake, Int.mul_emod_left, Int.add_zero, timeClip_day (by omega) (by omega)]
  unfold lastDayOfWindow
  rw [isoDate_day ⟨by omega, h.2⟩, parseMidnight_of_day (parseDay_dateText (by omega) h.2),
    timeClip_day (by omega) hd1, Option.bind_some, hset]
  dsimp only
  rw [isoDate_day (year_bounds (by omega) (by omega))]

end DateBounds

/-- A partition that may go: it ends before the retention starts, and for a gated
table some attestation is there for the last day before its bound. -/
structure Droppable (s : Session) (config : TableConfig) (now : Int) (p : SchemaPartition)
    (upperBound : Int) : Prop where
  parsed : parsePartitionBoundary s.fallback p.description = some upperBound
  date_bound : ∀ day, DateBound p.description day → upperBound = day * msPerDay
  before_retention : timeClip (retentionStart now config.retentionMonths) ≠ none →
    upperBound ≤ retentionStart now config.retentionMonths
  last_day_attested : config.requireAttestation = true → ∃ rows, s.attestations = .ok rows ∧
    ∃ a ∈ rows, a.tableName = config.table ∧ a.merkleRoot ≠ none ∧ a.s3Key ≠ none ∧
      lastDayOfWindow s.fallback (isoDate upperBound) = .ok (dateText a.windowDate) ∧
      ∀ day, DateBound p.description day → a.windowDate = day - 1

theorem DropChecked.droppable {s : Session} {config : TableConfig} {now : Int} {p : SchemaPartition}
    {upperBound : Int} (h0 : 0 ≤ now) (h1 : now ≤ maxTime)
    (h : DropChecked s config (retentionCutoff now config.retentionMonths) p upperBound) :
    Droppable s config now p upperBound := by
  have hbound : ∀ day, DateBound p.description day → upperBound = day * msPerDay := by
    intro day hday
    exact Option.some.inj (h.parsed.symm.trans (parse_dateBound s.fallback hday))
  refine ⟨h.parsed, hbound, ?_, ?_⟩
  · intro hstart
    have hexpired := h.expired
    rw [retentionCutoff_eq h0 h1] at hexpired
    unfold timeClip at hstart hexpired
    split at hstart
    · next hrange =>
      rw [if_pos hrange] at hexpired
      have hlt := of_decide_eq_false hexpired
      omega
    · exact absurd rfl hstart
  · intro hgated
    obtain ⟨rows, text, hrows, htext, a, ha, htable, hwindow, hroot, hkey⟩ := h.attested hgated
    refine ⟨rows, hrows, a, ha, htable, hroot, hkey, ?_, ?_⟩
    · rw [htext, hwindow]
    · intro day hday
      obtain ⟨hd0, hd1⟩ := day_bounds ⟨hday.1, hday.2.1⟩
      obtain ⟨hy0, hy1⟩ := year_bounds (z := day - 1) (by omega) (by omega)
      have hlast := lastDayOfWindow_day s.fallback ⟨hday.1, hday.2.1⟩
      rw [← hbound day hday, htext, ← hwindow] at hlast
      have hparse := congrArg parseDay (Except.ok.inj hlast)
      rw [parseDay_dateText a.windowDate_range.1 a.windowDate_range.2, parseDay_dateText hy0 hy1] at hparse
      exact Option.some.inj hparse

theorem dropped_partition_expired_and_attested {registry : List TableConfig} {db : String → Session}
    {now : Int} (h0 : 0 ≤ now) (h1 : now ≤ maxTime) {dryRun : Bool} {only : Option (List String)}
    {summary : RotationSummary} {ddl : List Ddl}
    (hrun : runPartitionRotation registry db (some now) dryRun only = .ok (summary, ddl))
    {table name : String} (hdrop : .dropPartition table name ∈ ddl) :
    ∃ config ∈ registry, config.table = table ∧ ∃ p, (db table).Lists p ∧ p.name = name ∧
      ∃ upperBound, Droppable (db table) config now p upperBound := by
  unfold runPartitionRotation at hrun
  dsimp only at hrun
  obtain ⟨-, rfl⟩ := Prod.mk.inj (Except.ok.inj hrun)
  obtain ⟨run, hmem, hddl⟩ := List.mem_flatMap.1 hdrop
  obtain ⟨config, hconfig, rfl⟩ := List.mem_map.1 hmem
  obtain ⟨rfl, p, hp, rfl, upperBound, hchecked⟩ := rotateTable_checked hddl
  refine ⟨config, ?_, rfl, p, hp, rfl, upperBound, hchecked.droppable h0 h1⟩
  split at hconfig
  · exact List.mem_of_mem_filter hconfig
  · exact hconfig

/-- 2026-05-12. -/
def may2026 : Int := 1778544000000

/-- The audit log of April 2019, with the attestation of tenant 1 for its last day. -/
def oneAttestation : Session where
  partitions := some [⟨"p_2019_04", "'2019-05-01'"⟩, ⟨"p_max", "MAXVALUE"⟩]
  refreshed := none
  today := may2026
  attestations := .ok [⟨1, "audit_log", 18016, some "root", some "key", by decide⟩]
  diskFree := fun _ => .ok ()
  execute := fun _ => .ok ()
  fallback := fun _ => none

theorem april_dropped_once_attested :
    ((0 ≤ may2026 ∧ may2026 ≤ maxTime) ∧ ∃ out,
      runPartitionRotation tableRegistry (fun _ => oneAttestation) (some may2026) false
        (some ["audit_log"]) = .ok out ∧ .dropPartition "audit_log" "p_2019_04" ∈ out.2) ∧
      ∃ config ∈ tableRegistry, config.table = "audit_log" ∧
        ∃ p, oneAttestation.Lists p ∧ p.name = "p_2019_04" ∧
          ∃ upperBound, Droppable oneAttestation config may2026 p upperBound := by
  have hrun : ∃ out, runPartitionRotation tableRegistry (fun _ => oneAttestation) (some may2026) false
      (some ["audit_log"]) = .ok out ∧ .dropPartition "audit_log" "p_2019_04" ∈ out.2 :=
    ⟨_, rfl, by decide⟩
  refine ⟨⟨by decide, hrun⟩, ?_⟩
  obtain ⟨⟨summary, ddl⟩, hrun, hdrop⟩ := hrun
  exact dropped_partition_expired_and_attested (by decide) (by decide) hrun hdrop

/-- Every day of the month up to the bound on which a tenant has a row has an
attestation for that tenant; a row is a tenant and a time. -/
def MonthAttested (s : Session) (table : String) (rows : List (Int × Int)) (upperBound : Int) : Prop :=
  ∀ r ∈ rows, makeDay (year upperBound) (month upperBound - 1) 1 * msPerDay ≤ r.2 → r.2 < upperBound →
    ∃ attestations, s.attestations = .ok attestations ∧ ∃ a ∈ attestations, a.tenantId = r.1 ∧
      a.tableName = table ∧ a.windowDate = r.2 / msPerDay

/-- The audit log with a retention that no date reaches back to. -/
def keptForever : TableConfig := ⟨"audit_log", "ts", 10000000000, true⟩

theorem april_dropped_with_tenant_unattested :
    (¬ ∀ s config now rows p upperBound, config ∈ tableRegistry → config.requireAttestation = true →
      s.Lists p → .dropPartition config.table p.name ∈ (rotateTable s config now false).2 →
        parsePartitionBoundary s.fallback p.description = some upperBound →
          MonthAttested s config.table rows upperBound) ∧
      ¬ ∀ s config now p upperBound, s.Lists p →
        .dropPartition config.table p.name ∈ (rotateTable s config now false).2 →
          parsePartitionBoundary s.fallback p.description = some upperBound →
            upperBound ≤ retentionStart now config.retentionMonths := by
  have hlists : oneAttestation.Lists ⟨"p_2019_04", "'2019-05-01'"⟩ :=
    ⟨_, Or.inl rfl, List.mem_cons_self⟩
  constructor
  · intro h
    obtain ⟨attestations, hrows, a, ha, htenant, -⟩ := h oneAttestation ⟨"audit_log", "ts", 84, true⟩
      may2026 [(2, 1555459200000)] ⟨"p_2019_04", "'2019-05-01'"⟩ 1556668800000 (by decide) rfl hlists
      (by decide) (by decide) (2, 1555459200000) List.mem_cons_self (by decide) (by decide)
    obtain rfl := Except.ok.inj hrows
    obtain rfl := List.mem_singleton.1 ha
    exact absurd htenant (by decide)
  · intro h
    have hbound := h oneAttestation keptForever may2026 ⟨"p_2019_04", "'2019-05-01'"⟩ 1556668800000
      hlists (by decide) (by decide)
    exact absurd hbound (by decide)

end Partition

end Vici2
