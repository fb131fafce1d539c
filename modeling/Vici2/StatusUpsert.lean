import Mathlib.Data.List.Basic

/-! Effective statuses of a campaign: its own row stands before its override, and that
before the system row. An upsert writes the row or the override, and what is read back
is the merge of all three. -/

namespace Vici2

namespace Statuses

inductive Category
  | agentOutcome
  | systemAmd
  | systemCarrier
  | systemCompliance
  | lifecycle
  deriving DecidableEq, Repr

/-- A row of `statuses`, with the column `max_calls` that the merge query names. -/
structure StatusRow where
  description : String
  selectable : Bool
  humanAnswered : Bool
  sale : Bool
  dnc : Bool
  callback : Bool
  notInterested : Bool
  hotkey : Option (Fin 10)
  recycleDelaySeconds : Option Int
  maxCalls : Option Int
  category : Option Category
  systemOwner : Option String
  deriving DecidableEq, Repr

structure Override where
  recycleDelaySeconds : Option Int
  maxCalls : Option Int
  deriving DecidableEq, Repr

/-- A field is undefined, null or a value. -/
structure StatusDef where
  description : Option String
  selectable : Option Bool
  humanAnswered : Option Bool
  sale : Option Bool
  dnc : Option Bool
  callback : Option Bool
  notInterested : Option Bool
  hotkey : Option (Option (Fin 10))
  recycleDelaySeconds : Option (Option Int)
  maxCalls : Option (Option Int)
  category : Option (Option Category)
  systemOwner : Option (Option String)

inductive Layer
  | shadow
  | override
  | system
  deriving DecidableEq, Repr

structure EffectiveStatus where
  code : String
  description : String
  selectable : Bool
  humanAnswered : Bool
  sale : Bool
  dnc : Bool
  callback : Bool
  notInterested : Bool
  hotkey : Option (Fin 10)
  recycleDelaySeconds : Option Int
  maxCalls : Option Int
  category : Option Category
  systemOwner : Option String
  source : Layer
  deriving DecidableEq, Repr

/-- The tables by their primary keys. The system rows belong to no campaign. -/
structure Tables where
  statuses : Int → String → String → Option StatusRow
  overrides : Int → String → String → Option Override
  campaigns : Int → String → Bool
  /-- `statuses` has a column `max_calls`. -/
  maxCallsColumn : Bool
  sys_no_campaign : ∀ tenantId, campaigns tenantId "__SYS__" = false

/-- `COALESCE(c.f, sys.f)` for a column that is never null. -/
def coalesceRow {α : Type} (f : StatusRow → α) (c sys : Option StatusRow) (null : α) : α :=
  ((c.map f) <|> (sys.map f)).getD null

/-- The merge query at one code; without a row there is no code. -/
def mergeRow (code : String) (c sys : Option StatusRow) (o : Option Override) :
    Option EffectiveStatus :=
  if c.isNone && sys.isNone then none
  else some {
    code := code
    description := coalesceRow StatusRow.description c sys ""
    selectable := coalesceRow StatusRow.selectable c sys false
    humanAnswered := coalesceRow StatusRow.humanAnswered c sys false
    sale := coalesceRow StatusRow.sale c sys false
    dnc := coalesceRow StatusRow.dnc c sys false
    callback := coalesceRow StatusRow.callback c sys false
    notInterested := coalesceRow StatusRow.notInterested c sys false
    hotkey := c.bind StatusRow.hotkey <|> sys.bind StatusRow.hotkey
    recycleDelaySeconds := c.bind StatusRow.recycleDelaySeconds <|>
      o.bind Override.recycleDelaySeconds <|> sys.bind StatusRow.recycleDelaySeconds
    maxCalls := o.bind Override.maxCalls <|> sys.bind StatusRow.maxCalls
    category := c.bind StatusRow.category <|> sys.bind StatusRow.category
    systemOwner := c.bind StatusRow.systemOwner <|> sys.bind StatusRow.systemOwner
    source := if c.isSome then .shadow else if o.isSome then .override else .system }

def Tables.merged (t : Tables) (tenantId : Int) (campaignId code : String) :
    Option EffectiveStatus :=
  mergeRow code (t.statuses tenantId campaignId code) (t.statuses tenantId "__SYS__" code)
    (t.overrides tenantId campaignId code)

/-- The query names `sys.max_calls`. -/
def resolve (t : Tables) (tenantId : Int) (campaignId code : String) :
    Except String (Option EffectiveStatus) :=
  if t.maxCallsColumn then .ok (t.merged tenantId campaignId code)
  else .error "Unknown column 'sys.max_calls' in 'field list'"

def StatusDef.hasOtherColumns (d : StatusDef) : Bool :=
  d.description.isSome || d.selectable.isSome || d.humanAnswered.isSome || d.sale.isSome ||
    d.dnc.isSome || d.callback.isSome || d.notInterested.isSome || d.hotkey.isSome ||
    d.category.isSome

def StatusDef.hasOnlyDelayOrMaxCalls (d : StatusDef) : Bool :=
  d.recycleDelaySeconds.isSome || d.maxCalls.isSome

/-- The row in the campaign's layer with the defined columns, over the row it has or the
system row. -/
def StatusDef.writeRow (d : StatusDef) (r : StatusRow) : StatusRow :=
  { r with
    description := d.description.getD r.description
    selectable := d.selectable.getD r.selectable
    humanAnswered := d.humanAnswered.getD r.humanAnswered
    sale := d.sale.getD r.sale
    dnc := d.dnc.getD r.dnc
    callback := d.callback.getD r.callback
    notInterested := d.notInterested.getD r.notInterested
    hotkey := d.hotkey.getD r.hotkey
    recycleDelaySeconds := d.recycleDelaySeconds.getD r.recycleDelaySeconds
    category := d.category.getD r.category }

/-- A new row has no `max_calls`. -/
def StatusDef.createRow (d : StatusDef) (sys : StatusRow) : StatusRow :=
  { d.writeRow sys with maxCalls := none }

def StatusDef.writeOverride (d : StatusDef) (o : Option Override) : Override where
  recycleDelaySeconds := d.recycleDelaySeconds.getD (o.bind Override.recycleDelaySeconds)
  maxCalls := d.maxCalls.getD (o.bind Override.maxCalls)

/-- `VARCHAR(128)`, `INT` and the check of the recycle delay. -/
def StatusDef.fitsRow (d : StatusDef) : Bool :=
  d.description.all (fun s => decide (s.length ≤ 128)) &&
    d.recycleDelaySeconds.all fun v => v.all fun n => decide (-1 ≤ n ∧ n < 2147483648)

/-- `VARCHAR(8)`, `INT` and `TINYINT` -/
def StatusDef.fitsOverride (d : StatusDef) (code : String) : Bool :=
  decide (code.length ≤ 8) &&
    (d.recycleDelaySeconds.all fun v => v.all fun n =>
      decide (-2147483648 ≤ n ∧ n < 2147483648)) &&
    d.maxCalls.all fun v => v.all fun n => decide (-128 ≤ n ∧ n < 128)

def Tables.setStatus (t : Tables) (tenantId : Int) (campaignId code : String) (r : StatusRow) :
    Tables :=
  { t with statuses := fun a b c =>
      if a = tenantId ∧ b = campaignId ∧ c = code then some r else t.statuses a b c }

def Tables.setOverride (t : Tables) (tenantId : Int) (campaignId code : String)
    (o : Override) : Tables :=
  { t with overrides := fun a b c =>
      if a = tenantId ∧ b = campaignId ∧ c = code then some o else t.overrides a b c }

/-- The write of an upsert; a value that does not fit its column is refused. -/
def upsertWrite (t : Tables) (tenantId : Int) (campaignId code : String) (d : StatusDef) :
    Except String Tables :=
  if d.hasOtherColumns then
    match t.statuses tenantId campaignId code with
    | some existing =>
      if d.fitsRow then .ok (t.setStatus tenantId campaignId code (d.writeRow existing))
      else .error "P2000"
    | none =>
      match t.statuses tenantId "__SYS__" code with
      | none => .error "status_not_found"
      | some sys =>
        if d.fitsRow then .ok (t.setStatus tenantId campaignId code (d.createRow sys))
        else .error "P2000"
  else if d.hasOnlyDelayOrMaxCalls then
    if ¬ t.campaigns tenantId campaignId then .error "P2003"
    else if d.fitsOverride code then
      .ok (t.setOverride tenantId campaignId code
        (d.writeOverride (t.overrides tenantId campaignId code)))
    else .error "P2000"
  else .ok t

def upsert (t : Tables) (tenantId : Int) (campaignId code : String) (d : StatusDef) :
    Except String (EffectiveStatus × Tables) :=
  match upsertWrite t tenantId campaignId code d with
  | .error e => .error e
  | .ok t' =>
    match resolve t' tenantId campaignId code with
    | .error e => .error e
    | .ok none => .error "status_not_found"
    | .ok (some updated) => .ok (updated, t')

/-- What a field reads after it was given: a value is read back, and an undefined field
reads as before. -/
def Given {α : Type} (given : Option α) (old new : α) : Prop := new = given.getD old

def GivenNullable {α : Type} (given : Option (Option α)) (old new : Option α) : Prop :=
  (given = none → new = old) ∧ ∀ v, given = some (some v) → new = some v

structure ReadsBack (d : StatusDef) (old new : EffectiveStatus) : Prop where
  description : Given d.description old.description new.description
  selectable : Given d.selectable old.selectable new.selectable
  humanAnswered : Given d.humanAnswered old.humanAnswered new.humanAnswered
  sale : Given d.sale old.sale new.sale
  dnc : Given d.dnc old.dnc new.dnc
  callback : Given d.callback old.callback new.callback
  notInterested : Given d.notInterested old.notInterested new.notInterested
  hotkey : GivenNullable d.hotkey old.hotkey new.hotkey
  recycleDelaySeconds :
    GivenNullable d.recycleDelaySeconds old.recycleDelaySeconds new.recycleDelaySeconds
  maxCalls : GivenNullable d.maxCalls old.maxCalls new.maxCalls
  category : GivenNullable d.category old.category new.category
  systemOwner : GivenNullable d.systemOwner old.systemOwner new.systemOwner

/-- The upsert succeeds, and what it returns and resolves to afterwards has the fields
of the definition over those of before. -/
def ReadBack (t : Tables) (tenantId : Int) (campaignId code : String) (d : StatusDef) : Prop :=
  ∃ old new t', t.merged tenantId campaignId code = some old ∧
    upsert t tenantId campaignId code d = .ok (new, t') ∧
    resolve t' tenantId campaignId code = .ok (some new) ∧ ReadsBack d old new

/-- The values to be written fit their columns. -/
def StatusDef.fits (d : StatusDef) (code : String) : Bool :=
  if d.hasOtherColumns then d.fitsRow
  else if d.hasOnlyDelayOrMaxCalls then d.fitsOverride code
  else true

/-- Nothing given is lost and nothing else is shown: the call cap goes to the override
only, the owner nowhere; a delay in the override shows unless the campaign's row has its
own, and a new row brings the delay of the system row with it. -/
structure Shown (d : StatusDef) (c : Option StatusRow) (sys : StatusRow) (o : Option Override) :
    Prop where
  maxCalls : d.hasOtherColumns = true → ∀ v, d.maxCalls = some (some v) →
    (o.bind Override.maxCalls <|> sys.maxCalls) = some v
  systemOwner : ∀ v, d.systemOwner = some (some v) →
    (c.bind StatusRow.systemOwner <|> sys.systemOwner) = some v
  ownDelay : d.hasOtherColumns = false → ∀ v, d.recycleDelaySeconds = some (some v) →
    ∀ w, c.bind StatusRow.recycleDelaySeconds = some w → w = v
  overrideDelay : d.hasOtherColumns = true → c = none → d.recycleDelaySeconds = none →
    ∀ v w, o.bind Override.recycleDelaySeconds = some v → sys.recycleDelaySeconds = some w → w = v

section

variable {t : Tables} {tenantId : Int} {campaignId code : String} {d : StatusDef}
  {c : Option StatusRow} {sys : StatusRow} {o : Option Override}

@[simp] theorem coalesceRow_some {α : Type} (f : StatusRow → α) (r : StatusRow)
    (sys : Option StatusRow) (null : α) : coalesceRow f (some r) sys null = f r := rfl

@[simp] theorem coalesceRow_none {α : Type} (f : StatusRow → α) (r : StatusRow) (null : α) :
    coalesceRow f none (some r) null = f r := rfl

/-- The campaign's row and override after the write. -/
def StatusDef.written (d : StatusDef) (c : Option StatusRow) (sys : StatusRow)
    (o : Option Override) : Option StatusRow × Option Override :=
  if d.hasOtherColumns then
    match c with
    | some existing => (some (d.writeRow existing), o)
    | none => (some (d.createRow sys), o)
  else if d.hasOnlyDelayOrMaxCalls then (c, some (d.writeOverride o))
  else (c, o)

theorem mergeRow_sys (code : String) (c : Option StatusRow) (sys : StatusRow)
    (o : Option Override) : ∃ e, mergeRow code c (some sys) o = some e := by
  unfold mergeRow
  rw [if_neg (by simp)]
  exact ⟨_, rfl⟩

theorem campaign_ne_sys (h : t.campaigns tenantId campaignId = true) : campaignId ≠ "__SYS__" := by
  rintro rfl
  rw [t.sys_no_campaign] at h
  cases h

@[simp] theorem setStatus_maxCallsColumn (r : StatusRow) :
    (t.setStatus tenantId campaignId code r).maxCallsColumn = t.maxCallsColumn := rfl

@[simp] theorem setOverride_maxCallsColumn (v : Override) :
    (t.setOverride tenantId campaignId code v).maxCallsColumn = t.maxCallsColumn := rfl

theorem merged_setStatus (hne : campaignId ≠ "__SYS__") (r : StatusRow) :
    (t.setStatus tenantId campaignId code r).merged tenantId campaignId code =
      mergeRow code (some r) (t.statuses tenantId "__SYS__" code)
        (t.overrides tenantId campaignId code) := by
  unfold Tables.merged Tables.setStatus
  have hsys : ¬ ("__SYS__" = campaignId) := fun h => hne h.symm
  simp [hsys]

theorem merged_setOverride (v : Override) :
    (t.setOverride tenantId campaignId code v).merged tenantId campaignId code =
      mergeRow code (t.statuses tenantId campaignId code) (t.statuses tenantId "__SYS__" code)
        (some v) := by
  unfold Tables.merged Tables.setOverride
  simp

/-- A write that fits leaves the tables with the written layers. -/
theorem upsertWrite_spec (hcampaign : t.campaigns tenantId campaignId = true)
    (hsys : t.statuses tenantId "__SYS__" code = some sys) :
    (d.fits code = true ∧ ∃ t', upsertWrite t tenantId campaignId code d = .ok t' ∧
        t'.maxCallsColumn = t.maxCallsColumn ∧
        t'.merged tenantId campaignId code =
          mergeRow code
            (d.written (t.statuses tenantId campaignId code) sys
              (t.overrides tenantId campaignId code)).1 (some sys)
            (d.written (t.statuses tenantId campaignId code) sys
              (t.overrides tenantId campaignId code)).2) ∨
      (d.fits code = false ∧ ∃ e, upsertWrite t tenantId campaignId code d = .error e) := by
  have hne := campaign_ne_sys hcampaign
  unfold upsertWrite StatusDef.fits StatusDef.written
  by_cases hother : d.hasOtherColumns = true
  · simp only [hother, if_true, hsys]
    cases hfits : d.fitsRow with
    | true =>
      left
      cases hc : t.statuses tenantId campaignId code with
      | some existing =>
        refine ⟨rfl, _, rfl, rfl, ?_⟩
        rw [merged_setStatus hne, hsys]
      | none =>
        refine ⟨rfl, _, rfl, rfl, ?_⟩
        rw [merged_setStatus hne, hsys]
    | false =>
      right
      cases hc : t.statuses tenantId campaignId code with
      | some existing => exact ⟨rfl, _, rfl⟩
      | none => exact ⟨rfl, _, rfl⟩
  · by_cases hdelay : d.hasOnlyDelayOrMaxCalls = true
    · simp only [hother, hdelay, if_true, hcampaign, not_true_eq_false, if_false, Bool.false_eq_true]
      cases hfits : d.fitsOverride code with
      | true =>
        left
        refine ⟨rfl, _, rfl, rfl, ?_⟩
        rw [merged_setOverride, hsys]
      | false => exact Or.inr ⟨rfl, _, rfl⟩
    · left
      simp only [hother, hdelay, if_false, Bool.false_eq_true]
      refine ⟨trivial, t, rfl, rfl, ?_⟩
      unfold Tables.merged
      rw [hsys]

theorem givenNullable_self {α : Type} {given : Option (Option α)} {x : Option α} :
    GivenNullable given x x ↔ ∀ v, given = some (some v) → x = some v := by
  constructor
  · exact fun h => h.2
  · exact fun h => ⟨fun _ => rfl, h⟩

/-- A nullable column that is written where it shows first. -/
theorem givenNullable_write {α : Type} (given : Option (Option α)) (x y : Option α) :
    GivenNullable given (x <|> y) (given.getD x <|> y) := by
  constructor
  · rintro rfl
    rfl
  · rintro v rfl
    rfl

theorem orElse_self {α : Type} (x : Option α) : (x <|> x) = x := by
  cases x with
  | none => rfl
  | some v => rfl

/-- A nullable column that is written behind a layer: the layer must agree. -/
theorem givenNullable_behind {α : Type} (given : Option (Option α)) (w x y : Option α) :
    GivenNullable given (w <|> x <|> y) (w <|> given.getD x <|> y) ↔
      ∀ v, given = some (some v) → ∀ u, w = some u → u = v := by
  constructor
  · intro h v hv u hu
    have hshown := h.2 v hv
    rw [hu] at hshown
    exact Option.some.inj hshown
  · intro h
    constructor
    · rintro rfl
      rfl
    · rintro v rfl
      cases hw : w with
      | none => rfl
      | some u =>
        rw [h v rfl u hw]
        rfl

/-- A nullable column copied from the last layer to the first: the layer between must
agree with it. -/
theorem givenNullable_before {α : Type} (given : Option (Option α)) (w x : Option α) :
    GivenNullable given (w <|> x) (given.getD x <|> w <|> x) ↔
      (given = none → ∀ v u, w = some v → x = some u → u = v) := by
  constructor
  · rintro h rfl v u rfl rfl
    exact Option.some.inj (h.1 rfl)
  · intro h
    constructor
    · rintro rfl
      cases hw : w with
      | none => exact orElse_self x
      | some v =>
        cases hx : x with
        | none => rfl
        | some u =>
          rw [h rfl v u hw hx]
          rfl
    · rintro v rfl
      rfl

theorem readsBack_writeRow_iff (code : String) (r sys : StatusRow) (o : Option Override)
    (hother : d.hasOtherColumns = true) {old new : EffectiveStatus}
    (hold : mergeRow code (some r) (some sys) o = some old)
    (hnew : mergeRow code (some (d.writeRow r)) (some sys) o = some new) :
    ReadsBack d old new ↔ Shown d (some r) sys o := by
  obtain rfl := Option.some.inj hold
  obtain rfl := Option.some.inj hnew
  constructor
  · intro h
    have hmax := givenNullable_self.1 h.maxCalls
    have howner := givenNullable_self.1 h.systemOwner
    exact ⟨fun _ => hmax, howner, fun hno => by simp [hother] at hno, fun _ hnone => by cases hnone⟩
  · intro h
    exact ⟨rfl, rfl, rfl, rfl, rfl, rfl, rfl, givenNullable_write _ _ _, givenNullable_write _ _ _,
      givenNullable_self.2 (h.maxCalls hother), givenNullable_write _ _ _,
      givenNullable_self.2 h.systemOwner⟩

theorem readsBack_createRow_iff (code : String) (sys : StatusRow) (o : Option Override)
    (hother : d.hasOtherColumns = true) {old new : EffectiveStatus}
    (hold : mergeRow code none (some sys) o = some old)
    (hnew : mergeRow code (some (d.createRow sys)) (some sys) o = some new) :
    ReadsBack d old new ↔ Shown d none sys o := by
  obtain rfl := Option.some.inj hold
  obtain rfl := Option.some.inj hnew
  have hsame : ∀ {α : Type} (given : Option (Option α)) (x : Option α),
      GivenNullable given x (given.getD x <|> x) := by
    intro α given x
    have h := givenNullable_write given x x
    rw [orElse_self] at h
    exact h
  have hdelay := givenNullable_before d.recycleDelaySeconds (o.bind Override.recycleDelaySeconds)
    sys.recycleDelaySeconds
  constructor
  · intro h
    have howner : GivenNullable d.systemOwner sys.systemOwner
      (sys.systemOwner <|> sys.systemOwner) := h.systemOwner
    rw [orElse_self] at howner
    exact ⟨fun _ => givenNullable_self.1 h.maxCalls, givenNullable_self.1 howner,
      fun hno => by simp [hother] at hno, fun _ _ => hdelay.1 h.recycleDelaySeconds⟩
  · intro h
    have howner : GivenNullable d.systemOwner sys.systemOwner
        (sys.systemOwner <|> sys.systemOwner) := by
      rw [orElse_self]
      exact givenNullable_self.2 h.systemOwner
    exact ⟨rfl, rfl, rfl, rfl, rfl, rfl, rfl, hsame _ _, hdelay.2 (h.overrideDelay hother rfl),
      givenNullable_self.2 (h.maxCalls hother), hsame _ _, howner⟩

theorem given_none {α : Type} {given : Option α} {x : α} (h : given = none) : Given given x x := by
  subst h
  rfl

/-- Where no other column is defined, the write shows in the override's columns only. -/
theorem readsBack_override_iff (code : String) (c : Option StatusRow) (sys : StatusRow)
    {o o' : Option Override} (hother : d.hasOtherColumns = false)
    (hdelay : o'.bind Override.recycleDelaySeconds =
      d.recycleDelaySeconds.getD (o.bind Override.recycleDelaySeconds))
    (hmax : o'.bind Override.maxCalls = d.maxCalls.getD (o.bind Override.maxCalls))
    {old new : EffectiveStatus} (hold : mergeRow code c (some sys) o = some old)
    (hnew : mergeRow code c (some sys) o' = some new) :
    ReadsBack d old new ↔ Shown d c sys o := by
  unfold mergeRow at hold hnew
  rw [if_neg (by simp)] at hold hnew
  rw [hdelay, hmax] at hnew
  obtain rfl := Option.some.inj hold
  obtain rfl := Option.some.inj hnew
  have hshown := givenNullable_behind d.recycleDelaySeconds (c.bind StatusRow.recycleDelaySeconds)
    (o.bind Override.recycleDelaySeconds) sys.recycleDelaySeconds
  constructor
  · intro h
    exact ⟨fun hyes => by simp [hother] at hyes, givenNullable_self.1 h.systemOwner,
      fun _ => hshown.1 h.recycleDelaySeconds, fun hyes => by simp [hother] at hyes⟩
  · intro h
    have hnull : ∀ {α : Type} {given : Option (Option α)} {x : Option α}, given = none →
        GivenNullable given x x := by
      rintro α given x rfl
      exact givenNullable_self.2 fun v hv => by cases hv
    have hdelay' := hshown.2 (h.ownDelay hother)
    simp only [StatusDef.hasOtherColumns, Bool.or_eq_false_iff, Option.isSome_eq_false_iff,
      Option.isNone_iff_eq_none] at hother
    obtain ⟨⟨⟨⟨⟨⟨⟨⟨h1, h2⟩, h3⟩, h4⟩, h5⟩, h6⟩, h7⟩, h8⟩, h9⟩ := hother
    exact ⟨given_none h1, given_none h2, given_none h3, given_none h4, given_none h5,
      given_none h6, given_none h7, hnull h8, hdelay', givenNullable_write _ _ _, hnull h9,
      givenNullable_self.2 h.systemOwner⟩

/-- What the written layers show, by the layer that was written. -/
theorem readsBack_iff {old new : EffectiveStatus} (hold : mergeRow code c (some sys) o = some old)
    (hnew : mergeRow code (d.written c sys o).1 (some sys) (d.written c sys o).2 = some new) :
    ReadsBack d old new ↔ Shown d c sys o := by
  unfold StatusDef.written at hnew
  cases hother : d.hasOtherColumns with
  | true =>
    rw [if_pos hother] at hnew
    cases c with
    | some r => exact readsBack_writeRow_iff code r sys o hother hold hnew
    | none => exact readsBack_createRow_iff code sys o hother hold hnew
  | false =>
    rw [if_neg (by simp [hother])] at hnew
    by_cases hdelay : d.hasOnlyDelayOrMaxCalls = true
    · rw [if_pos hdelay] at hnew
      exact readsBack_override_iff code c sys hother rfl rfl hold hnew
    · rw [if_neg hdelay] at hnew
      simp only [StatusDef.hasOnlyDelayOrMaxCalls, Bool.or_eq_true, not_or, Bool.not_eq_true,
        Option.isSome_eq_false_iff, Option.isNone_iff_eq_none] at hdelay
      obtain ⟨hd, hm⟩ := hdelay
      exact readsBack_override_iff code c sys hother (by rw [hd]; rfl) (by rw [hm]; rfl) hold hnew

/-- An upsert is read back exactly where the merge query can run, the values fit their
columns, and the layer written to is the one that shows. -/
theorem upsert_readBack_iff (t : Tables) (tenantId : Int) (campaignId code : String)
    (d : StatusDef) (sys : StatusRow) (hcampaign : t.campaigns tenantId campaignId = true)
    (hsys : t.statuses tenantId "__SYS__" code = some sys) :
    ReadBack t tenantId campaignId code d ↔
      t.maxCallsColumn = true ∧ d.fits code = true ∧
        Shown d (t.statuses tenantId campaignId code) sys
          (t.overrides tenantId campaignId code) := by
  have hmerged : t.merged tenantId campaignId code = mergeRow code
      (t.statuses tenantId campaignId code) (some sys) (t.overrides tenantId campaignId code) := by
    unfold Tables.merged
    rw [hsys]
  obtain ⟨hfits, t', hwrite, hcol, hmerged'⟩ | ⟨hfits, e, hwrite⟩ :=
    @upsertWrite_spec t tenantId campaignId code d sys hcampaign hsys
  · obtain ⟨old, hold⟩ := mergeRow_sys code (t.statuses tenantId campaignId code) sys
      (t.overrides tenantId campaignId code)
    obtain ⟨new, hnew⟩ := mergeRow_sys code
      (d.written (t.statuses tenantId campaignId code) sys
        (t.overrides tenantId campaignId code)).1 sys
      (d.written (t.statuses tenantId campaignId code) sys
        (t.overrides tenantId campaignId code)).2
    have hiff := readsBack_iff hold hnew
    rw [← hmerged] at hold
    rw [← hmerged'] at hnew
    cases hhas : t.maxCallsColumn with
    | true =>
      have hresolve : resolve t' tenantId campaignId code = .ok (some new) := by
        unfold resolve
        rw [hcol, hhas, if_pos rfl, hnew]
      have hupsert : upsert t tenantId campaignId code d = .ok (new, t') := by
        unfold upsert
        simp only [hwrite, hresolve]
      constructor
      · rintro ⟨old', new', t'', hold', hupsert', -, hreads⟩
        rw [hold] at hold'
        rw [hupsert] at hupsert'
        obtain rfl := Option.some.inj hold'
        obtain ⟨rfl, rfl⟩ := Prod.mk.inj (Except.ok.inj hupsert')
        exact ⟨rfl, hfits, hiff.1 hreads⟩
      · rintro ⟨-, -, hshown⟩
        exact ⟨old, new, t', hold, hupsert, hresolve, hiff.2 hshown⟩
    | false =>
      constructor
      · rintro ⟨old', new', t'', -, hupsert', -, -⟩
        unfold upsert resolve at hupsert'
        simp only [hwrite, hcol, hhas] at hupsert'
        cases hupsert'
      · rintro ⟨htrue, -⟩
        cases htrue
  · constructor
    · rintro ⟨old', new', t'', -, hupsert', -, -⟩
      unfold upsert at hupsert'
      simp only [hwrite] at hupsert'
      cases hupsert'
    · rintro ⟨-, hfits', -⟩
      rw [hfits] at hfits'
      cases hfits'

end

/-- The system row of a busy number. -/
def busy : StatusRow :=
  ⟨"Busy", true, false, false, false, false, false, some ⟨8, by decide⟩, some 120, none,
    some .agentOutcome, some "__AGT__"⟩

/-- Campaign SALES of tenant 1 shows a busy number after a delay of its own. -/
def busyTables (maxCallsColumn : Bool) (o : Option Override) : Tables where
  statuses tenantId campaignId code :=
    if tenantId = 1 ∧ campaignId = "__SYS__" ∧ code = "B" then some busy else none
  overrides tenantId campaignId code :=
    if tenantId = 1 ∧ campaignId = "SALES" ∧ code = "B" then o else none
  campaigns tenantId campaignId := decide (tenantId = 1 ∧ campaignId = "SALES")
  maxCallsColumn := maxCallsColumn
  sys_no_campaign _ := by simp

def undefinedDef : StatusDef :=
  ⟨none, none, none, none, none, none, none, none, none, none, none, none⟩

theorem busy_delay_read_back :
    ReadBack (busyTables true none) 1 "SALES" "B"
      { undefinedDef with recycleDelaySeconds := some (some 60) } :=
  (upsert_readBack_iff (busyTables true none) 1 "SALES" "B" _ busy (by decide) (by decide)).2
    ⟨rfl, by decide, ⟨nofun, nofun, nofun, nofun⟩⟩

/-- The query fails on the columns that the migrations make; on a table with the column,
a call cap given with a description is lost, and a delay of 60 seconds in the override
goes back to 120 when the description is given. -/
theorem busy_not_read_back :
    ¬ ReadBack (busyTables false none) 1 "SALES" "B"
        { undefinedDef with recycleDelaySeconds := some (some 60) } ∧
      ¬ ReadBack (busyTables true none) 1 "SALES" "B"
        { undefinedDef with description := some "Engaged", maxCalls := some (some 3) } ∧
      ¬ ReadBack (busyTables true (some ⟨some 60, none⟩)) 1 "SALES" "B"
        { undefinedDef with description := some "Engaged" } := by
  refine ⟨?_, ?_, ?_⟩
  · rintro ⟨old, new, t', -, hupsert, -, -⟩
    cases hupsert
  · rintro ⟨old, new, t', hold, hupsert, -, hreads⟩
    cases hupsert
    have hmax := hreads.maxCalls.2 3 rfl
    cases hmax
  · rintro ⟨old, new, t', hold, hupsert, -, hreads⟩
    cases hold
    cases hupsert
    have hdelay := hreads.recycleDelaySeconds.1 rfl
    revert hdelay
    decide

end Statuses

end Vici2
