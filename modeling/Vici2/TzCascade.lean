import Mathlib.Data.List.Induction
import Vici2.TzResolver

/-! Each of the two timezone resolvers is a cascade: the first tier with an answer decides.
Two cascades have the same outcome exactly when their tiers answer alike up to the first
answer. -/

namespace Vici2

namespace Tz

section Cascades

variable {ι α : Type*}

def firstAnswer (f : ι → Option α) : List ι → Option (ι × α)
  | [] => none
  | i :: l =>
    match f i with
    | some a => some (i, a)
    | none => firstAnswer f l

/-- `same` holds of every tier up to the first that is not silent. -/
def WhileSilent (silent same : ι → Prop) : List ι → Prop
  | [] => True
  | i :: l => same i ∧ (silent i → WhileSilent silent same l)

theorem mem_of_firstAnswer {f : ι → Option α} {l : List ι} {i : ι} {a : α}
    (h : firstAnswer f l = some (i, a)) : i ∈ l := by
  induction l with
  | nil => simp [firstAnswer] at h
  | cons j l ih =>
    cases hj : f j with
    | some b =>
      simp only [firstAnswer, hj, Option.some.injEq, Prod.mk.injEq] at h
      simp [h.1]
    | none =>
      simp only [firstAnswer, hj] at h
      exact List.mem_cons_of_mem _ (ih h)

theorem firstAnswer_eq_iff {f g : ι → Option α} {l : List ι} (hl : l.Nodup) :
    firstAnswer f l = firstAnswer g l ↔
      WhileSilent (fun i => f i = none) (fun i => f i = g i) l := by
  induction l with
  | nil => simp [firstAnswer, WhileSilent]
  | cons i l ih =>
    obtain ⟨hi, hl⟩ := List.nodup_cons.1 hl
    cases hf : f i with
    | some a =>
      cases hg : g i with
      | some b => simp [firstAnswer, WhileSilent, hf, hg]
      | none =>
        have hne : firstAnswer g l ≠ some (i, a) := fun h => hi (mem_of_firstAnswer h)
        simp [firstAnswer, WhileSilent, hf, hg, hne.symm]
    | none =>
      cases hg : g i with
      | some b =>
        have hne : firstAnswer f l ≠ some (i, b) := fun h => hi (mem_of_firstAnswer h)
        simp [firstAnswer, WhileSilent, hf, hg, hne]
      | none => simpa [firstAnswer, WhileSilent, hf, hg] using ih hl

theorem firstAnswer_of_some {f : ι → Option α} {i : ι} {a : α} (h : f i = some a)
    (l : List ι) : firstAnswer f (i :: l) = some (i, a) := by
  simp only [firstAnswer, h]

theorem firstAnswer_of_none {f : ι → Option α} {i : ι} (h : f i = none) (l : List ι) :
    firstAnswer f (i :: l) = firstAnswer f l := by
  simp only [firstAnswer, h]

theorem WhileSilent.congr {silent same same' : ι → Prop} (h : ∀ i, same i ↔ same' i)
    (l : List ι) : WhileSilent silent same l ↔ WhileSilent silent same' l := by
  induction l with
  | nil => exact Iff.rfl
  | cons i l ih => simp only [WhileSilent, h i, ih]

end Cascades

inductive Tier
  | known
  | zip
  | override
  | nxx
  | npa
  | library
  | state
  | campaign
  deriving DecidableEq, Repr

def Tier.order : List Tier := [.known, .zip, .override, .nxx, .npa, .library, .state, .campaign]

def Tier.confidence : Tier → Confidence
  | .known => .known
  | .zip => .zip
  | .override => .nxx
  | .nxx => .nxx
  | .npa => .npa
  | .library => .npa
  | .state => .stateDefault
  | .campaign => .campaignDefault

def PhoneNumber.npa (n : PhoneNumber) : String := String.ofList (n.nsn.take 3)

def PhoneNumber.nxx (n : PhoneNumber) : String := String.ofList ((n.nsn.drop 3).take 3)

/-- The same zone from the same source; without a zone the dialer names no source. -/
def Agree {loc : Type} (ts : Ts.ResolveResult) (go : Go.ResolveResult loc) : Prop :=
  ts.iana = .text go.iana ∧ ts.confidence = go.confidence ∧
    (go.confidence ≠ .none → ts.source = go.source)

section Tables

/-- The row that is filed last under a key. -/
def lastRow {ρ : Type*} (p : ρ → Bool) (rows : List ρ) : Option ρ := (rows.filter p).getLast?

variable {loc : Type} (P : Platform loc)

def Loads (zone : String) : Prop := (P.loadLocation zone).isSome = true

instance : DecidablePred (Loads P) := fun zone =>
  inferInstanceAs (Decidable ((P.loadLocation zone).isSome = true))

/-- The number that the request's phone stands for in either resolver. -/
def number (req : ResolveRequest) : Option PhoneNumber :=
  if req.phoneE164 = "" then none
  else
    (P.parse (if req.phoneE164.toList.head? = some '+' then req.phoneE164
      else "+" ++ req.phoneE164)).filter fun n => !decide (n.nsn.length < 10)

/-- The zone of the last row that spells the codes as the number does. -/
def spelledZone (rows : List CodeRow) (n : PhoneNumber) : Option String :=
  (lastRow (fun row => decide (row.areaCode ++ row.exchangeCode = n.npa ++ n.nxx)) rows).map
    (·.tzIana)

/-- The zone of the last row with a loadable zone and codes of the same value. -/
def numericZone (rows : List CodeRow) (n : PhoneNumber) : Option String :=
  (lastRow (fun row => decide (Loads P row.tzIana) &&
    decide (Go.codeKey row.areaCode row.exchangeCode = Go.codeKey n.npa n.nxx)) rows).map
    (·.tzIana)

def spelledZip (rows : List ZipRow) (zip : String) : Option String :=
  (lastRow (fun row => decide (Ts.zipKey row.zip = Ts.zipKey zip)) rows).map (·.tzIana)

def numericZip (rows : List ZipRow) (zip : String) : Option String :=
  (lastRow (fun row => decide (Loads P row.tzIana) &&
    decide (Go.zipKey row.zip = Go.zipKey zip)) rows).map (·.tzIana)

def liveTs (campaigns : String → Option CampaignEntry) (now : Int) (id : String) :
    Option String :=
  ((campaigns id).filter fun e => now < e.expiresAt).map (·.iana)

def liveGo (campaigns : String → Option CampaignEntry) (now : Int) (id : String) :
    Option String :=
  ((campaigns id).filter fun e => !decide (e.expiresAt < now)).map (·.iana)

end Tables

section Loaders

variable {κ ρ ν : Type*}

theorem lastRow_concat (p : ρ → Bool) (rows : List ρ) (row : ρ) :
    lastRow p (rows ++ [row]) = if p row = true then some row else lastRow p rows := by
  by_cases hp : p row = true
  · simp [lastRow, List.filter_append, hp]
  · simp [lastRow, List.filter_append, hp]

/-- A loader keeps, of the rows with a value, the last one under each key. -/
theorem foldl_update_apply [DecidableEq κ] (key : ρ → κ) (val : ρ → Option ν)
    {put : (κ → Option ν) → ρ → κ → Option ν}
    (hnone : ∀ m row, val row = none → put m row = m)
    (hsome : ∀ m row v, val row = some v → put m row = Function.update m (key row) (some v))
    (rows : List ρ) (k : κ) :
    rows.foldl put (fun _ => none) k =
      (lastRow (fun row => (val row).isSome && decide (key row = k)) rows).bind val := by
  induction rows using List.reverseRecOn with
  | nil => simp [lastRow]
  | append_singleton rows row ih =>
    rw [List.foldl_append, lastRow_concat, List.foldl_cons, List.foldl_nil]
    cases hval : val row with
    | none => simpa [hnone _ _ hval] using ih
    | some v =>
      rw [hsome _ _ v hval]
      by_cases hk : key row = k
      · simp [hk, hval]
      · simpa [hk, Function.update_of_ne (Ne.symm hk)] using ih

/-- A loader that never overwrites keeps the first one. -/
theorem foldl_keepFirst_apply [DecidableEq κ] (key : ρ → κ) (val : ρ → Option ν)
    {put : (κ → Option ν) → ρ → κ → Option ν}
    (hnone : ∀ m row, val row = none → put m row = m)
    (hsome : ∀ m row v, val row = some v → put m row =
      if (m (key row)).isSome then m else Function.update m (key row) (some v))
    (rows : List ρ) (k : κ) :
    rows.foldl put (fun _ => none) k =
      (rows.find? fun row => (val row).isSome && decide (key row = k)).bind val := by
  induction rows using List.reverseRecOn with
  | nil => simp
  | append_singleton rows row ih =>
    rw [List.foldl_append, List.find?_append, List.foldl_cons, List.foldl_nil]
    cases hval : val row with
    | none => simpa [hval, hnone _ _ hval] using ih
    | some v =>
      rw [hsome _ _ v hval]
      by_cases hk : key row = k
      · subst hk
        cases hfind : rows.find? (fun r => (val r).isSome && decide (key r = key row)) with
        | none =>
          rw [hfind] at ih
          simp [ih, hval]
        | some r =>
          have hr := List.find?_some hfind
          obtain ⟨w, hw⟩ := Option.isSome_iff_exists.1 (Bool.and_eq_true_iff.1 hr).1
          rw [hfind] at ih
          simp [ih, hw]
      · simp only [hk, decide_false, Bool.and_false, List.find?_cons, List.find?_nil,
          Option.or_none]
        split
        · exact ih
        · rw [Function.update_of_ne (Ne.symm hk)]
          exact ih

variable {loc : Type} (P : Platform loc)

/-- What the dialer makes of the zone of a row. -/
def entry (zone : String) : Option (Go.CacheEntry loc) :=
  (P.loadLocation zone).map fun l => ⟨zone, l⟩

theorem entry_isSome (zone : String) : (entry P zone).isSome = decide (Loads P zone) := by
  rw [entry, Option.isSome_map]
  exact (Bool.decide_coe _).symm

theorem bind_entry_iana (o : Option ρ) (zone : ρ → String) (ho : ∀ row ∈ o, Loads P (zone row)) :
    (o.bind fun row => entry P (zone row)).map (·.iana) = o.map zone := by
  cases o with
  | none => rfl
  | some row =>
    obtain ⟨l, hl⟩ := Option.isSome_iff_exists.1 (ho row rfl)
    simp [entry, hl]

theorem tsLoad_apply (rows : List CodeRow) (n : PhoneNumber) :
    Ts.loadPhoneCodes rows (n.npa ++ n.nxx) = spelledZone rows n := by
  have h := foldl_update_apply (fun row : CodeRow => row.areaCode ++ row.exchangeCode)
    (fun row => some row.tzIana) (by simp) (fun m row v hv => by rw [← hv]) rows (n.npa ++ n.nxx)
  simpa [Ts.loadPhoneCodes, spelledZone, Option.map_eq_bind, Function.comp_def] using h

theorem tsLoadZip_apply (rows : List ZipRow) (zip : String) :
    Ts.loadZipCodes rows (Ts.zipKey zip) = spelledZip rows zip := by
  have h := foldl_update_apply (fun row : ZipRow => Ts.zipKey row.zip)
    (fun row => some row.tzIana) (by simp) (fun m row v hv => by rw [← hv]) rows (Ts.zipKey zip)
  simpa [Ts.loadZipCodes, spelledZip, Option.map_eq_bind, Function.comp_def] using h

theorem tsLoadNpa_apply (rows : List CodeRow) (npa : String) :
    Ts.loadNpaOnly rows npa =
      (rows.find? fun row => decide (row.areaCode = npa)).map (·.tzIana) := by
  have h := foldl_keepFirst_apply (fun row : CodeRow => row.areaCode)
    (fun row => some row.tzIana) (by simp) (fun m row v hv => by rw [← hv]) rows npa
  simpa [Ts.loadNpaOnly, Option.map_eq_bind, Function.comp_def] using h

theorem lastRow_some {p : ρ → Bool} {rows : List ρ} {row : ρ} (h : lastRow p rows = some row) :
    p row = true := (List.mem_filter.1 (List.mem_of_getLast? h)).2

theorem loadLocation_of_entry {zone : String} {v : Go.CacheEntry loc}
    (h : entry P zone = some v) : P.loadLocation zone = some v.loc ∧ v = ⟨zone, v.loc⟩ := by
  obtain ⟨l, hl, rfl⟩ := Option.map_eq_some_iff.1 h
  exact ⟨hl, rfl⟩

theorem loadLocation_of_entry_none {zone : String} (h : entry P zone = none) :
    P.loadLocation zone = none := Option.map_eq_none_iff.1 h

theorem goLoad_apply (rows : List CodeRow) (n : PhoneNumber) :
    (Go.loadPhoneCodes P rows (Go.codeKey n.npa n.nxx)).map (·.iana) = numericZone P rows n := by
  rw [Go.loadPhoneCodes,
    foldl_update_apply (fun row : CodeRow => Go.codeKey row.areaCode row.exchangeCode)
      (fun row => entry P row.tzIana), bind_entry_iana]
  · simp only [entry_isSome, numericZone]
  · intro row hrow
    have hp := lastRow_some hrow
    simp only [entry_isSome, Bool.and_eq_true, decide_eq_true_eq] at hp
    exact hp.1
  · intro m row hrow
    simp [loadLocation_of_entry_none P hrow]
  · intro m row v hrow
    obtain ⟨hl, hv⟩ := loadLocation_of_entry P hrow
    rw [hl, hv]

theorem goLoadNpa_apply (rows : List CodeRow) (npa : String) :
    (Go.loadNpaOnly P rows npa).map (·.iana) =
      (rows.find? fun row => decide (Loads P row.tzIana) && decide (row.areaCode = npa)).map
        (·.tzIana) := by
  rw [Go.loadNpaOnly, foldl_keepFirst_apply (fun row : CodeRow => row.areaCode)
      (fun row => entry P row.tzIana), bind_entry_iana]
  · simp only [entry_isSome]
  · intro row hrow
    have hp := List.find?_some hrow
    simp only [entry_isSome, Bool.and_eq_true, decide_eq_true_eq] at hp
    exact hp.1
  · intro m row hrow
    simp [loadLocation_of_entry_none P hrow]
  · intro m row v hrow
    obtain ⟨hl, hv⟩ := loadLocation_of_entry P hrow
    rw [hl, hv]

theorem goLoadZip_apply {rows : List ZipRow} {cache : Nat → Option (Go.CacheEntry loc)}
    (h : Go.loadZipCodes P rows = some cache) (k : Nat) :
    (cache k).map (·.iana) =
      (lastRow (fun row => decide (Loads P row.tzIana) &&
        decide (Go.zipKey row.zip = some k)) rows).map (·.tzIana) := by
  induction rows using List.reverseRecOn generalizing cache with
  | nil =>
    have hcache : cache = fun _ => none := by simpa [Go.loadZipCodes] using h.symm
    simp [hcache, lastRow]
  | append_singleton rows row ih =>
    rw [lastRow_concat]
    rw [Go.loadZipCodes, List.foldlM_append] at h
    obtain ⟨before, hbefore, hstep⟩ := Option.bind_eq_some_iff.1 h
    have hih := ih hbefore
    cases hload : P.loadLocation row.tzIana with
    | none =>
      have hcache : before = cache := by simpa [hload] using hstep
      simpa [Loads, hload, ← hcache] using hih
    | some l =>
      simp only [List.foldlM_cons, List.foldlM_nil, hload] at hstep
      cases hkey : Go.zipKey row.zip with
      | none => simp [hkey] at hstep
      | some key =>
        have hcache : Function.update before key (some ⟨row.tzIana, l⟩) = cache := by
          simpa [hkey] using hstep
        rw [← hcache]
        by_cases hk : key = k
        · simp [Loads, hload, hk]
        · simpa [Loads, hload, hk, Function.update_of_ne (Ne.symm hk)] using hih

end Loaders

section Agreement

variable {loc : Type} (P : Platform loc)

/-- What each tier of the API says, from the rows of the tables. -/
def Ts.answer (tables : Tables) (campaigns : String → Option CampaignEntry) (now : Int)
    (req : ResolveRequest) : Tier → Option Ts.Iana
  | .known =>
    if req.knownTimezone ≠ "" ∧ P.intlAccepts req.knownTimezone = true then
      some (.text req.knownTimezone)
    else none
  | .zip =>
    if Ts.isValidUSZip req.zip = true then (spelledZip tables.zipCodes req.zip).map .text
    else none
  | .override => (number P req).bind fun n => (spelledZone tables.overrides n).map .text
  | .nxx => (number P req).bind fun n => (spelledZone tables.phoneCodes n).map .text
  | .npa => (number P req).bind fun n =>
      (tables.phoneCodes.find? fun row => decide (row.areaCode = n.npa)).map fun row =>
        .text row.tzIana
  | .library => (number P req).bind fun n => (n.zones.head?.filter P.intlAccepts).map .text
  | .state =>
    if req.state = "" ∨ req.state ∈ splitStates then none else Ts.stateIana req.state
  | .campaign =>
    if req.campaignId = "" then none else (liveTs campaigns now req.campaignId).map .text

/-- What each tier of the dialer says, from the rows of the tables. -/
def Go.answer (tables : Tables) (campaigns : String → Option CampaignEntry) (now : Int)
    (req : ResolveRequest) : Tier → Option String
  | .known =>
    if req.knownTimezone ≠ "" ∧ Loads P req.knownTimezone then some req.knownTimezone else none
  | .zip =>
    if Go.isValidUSZip req.zip = true then numericZip P tables.zipCodes req.zip else none
  | .override => (number P req).bind fun n => numericZone P tables.overrides n
  | .nxx => (number P req).bind fun n => numericZone P tables.phoneCodes n
  | .npa => (number P req).bind fun n =>
      (tables.phoneCodes.find? fun row =>
        decide (Loads P row.tzIana) && decide (row.areaCode = n.npa)).map (·.tzIana)
  | .library => (number P req).bind fun n => n.zones.head?.filter fun zone => decide (Loads P zone)
  | .state =>
    if req.state = "" then none
    else (singleTzStateMap.lookup req.state).filter fun zone => decide (Loads P zone)
  | .campaign =>
    if req.campaignId = "" then none
    else (liveGo campaigns now req.campaignId).filter fun zone =>
      decide (zone ≠ "") && decide (Loads P zone)

/-- The text a tier gives as its source. -/
def Tier.source (req : ResolveRequest) (npa nxx : String) : Tier → String
  | .known => "lead.known_timezone"
  | .zip => "zip:" ++ req.zip
  | .override => "nxx:override:" ++ npa ++ "-" ++ nxx
  | .nxx => "nxx:" ++ npa ++ "-" ++ nxx
  | .npa => "npa:" ++ npa
  | .library => "npa:libphonenumber:" ++ npa
  | .state => "state:" ++ req.state
  | .campaign => "campaign:" ++ req.campaignId

/-- What is compared of a result. -/
structure Verdict where
  iana : Ts.Iana
  confidence : Confidence
  source : Option String

def Ts.ResolveResult.verdict (r : Ts.ResolveResult) : Verdict :=
  ⟨r.iana, r.confidence, if r.confidence = .none then none else some r.source⟩

def Go.ResolveResult.verdict (r : Go.ResolveResult loc) : Verdict :=
  ⟨.text r.iana, r.confidence, if r.confidence = .none then none else some r.source⟩

theorem agree_iff_verdict (ts : Ts.ResolveResult) (go : Go.ResolveResult loc) :
    Agree ts go ↔ ts.verdict = go.verdict := by
  rw [Agree, Ts.ResolveResult.verdict, Go.ResolveResult.verdict, Verdict.mk.injEq]
  refine and_congr_right fun _ => and_congr_right fun hconf => ?_
  rw [hconf]
  by_cases hnone : go.confidence = .none
  · simp [hnone]
  · simp [hnone]

def verdictOf (req : ResolveRequest) : Option (Tier × Ts.Iana) → Verdict
  | none => ⟨.text "", .none, none⟩
  | some (t, iana) =>
    ⟨iana, t.confidence,
      some (t.source req ((number P req).elim "" (·.npa)) ((number P req).elim "" (·.nxx)))⟩

theorem length_append_lt {s t : String} (h : s.length < t.length) (u : String) :
    (s ++ u).length < (t ++ u).length := by
  rw [String.length_append, String.length_append]
  omega

theorem Tier.source_length (req : ResolveRequest) (npa nxx : String) :
    (Tier.source req npa nxx .nxx).length < (Tier.source req npa nxx .override).length ∧
      (Tier.source req npa nxx .npa).length < (Tier.source req npa nxx .library).length := by
  have hnxx : "nxx:".length < "nxx:override:".length := by decide
  have hnpa : "npa:".length < "npa:libphonenumber:".length := by decide
  exact ⟨length_append_lt (length_append_lt (length_append_lt hnxx _) _) _,
    length_append_lt hnpa _⟩

theorem Tier.eq_of_source {req : ResolveRequest} {npa nxx : String} {t u : Tier}
    (hconf : t.confidence = u.confidence)
    (hsource : t.source req npa nxx = u.source req npa nxx) : t = u := by
  obtain ⟨hnxx, hnpa⟩ := Tier.source_length req npa nxx
  have hlen := congrArg String.length hsource
  cases t <;> cases u <;> first | rfl | (simp [Tier.confidence] at hconf; done) | omega

theorem verdictOf_inj {req : ResolveRequest} {o o' : Option (Tier × Ts.Iana)}
    (h : verdictOf P req o = verdictOf P req o') : o = o' := by
  rcases o with - | ⟨t, iana⟩ <;> rcases o' with - | ⟨u, iana'⟩
  · rfl
  · simp [verdictOf] at h
  · simp [verdictOf] at h
  · simp only [verdictOf, Verdict.mk.injEq, Option.some.injEq] at h
    rw [Tier.eq_of_source h.2.1 h.2.2, h.1]

theorem Ts.verdict_found (req : ResolveRequest) (t : Tier) (iana : Ts.Iana) {npa nxx : String}
    (hnpa : (number P req).elim "" (·.npa) = npa) (hnxx : (number P req).elim "" (·.nxx) = nxx)
    (a b : Option String) (numberType : Option NumberType) :
    Ts.ResolveResult.verdict ⟨iana, t.confidence, t.source req npa nxx, a, b, numberType⟩ =
      verdictOf P req (some (t, iana)) := by
  subst hnpa hnxx
  cases t <;> rfl

theorem Go.verdict_found (req : ResolveRequest) (t : Tier) (iana : String) {npa nxx : String}
    (hnpa : (number P req).elim "" (·.npa) = npa) (hnxx : (number P req).elim "" (·.nxx) = nxx)
    (location : Option loc) (info : Go.NumberInfo) :
    Go.ResolveResult.verdict ⟨iana, location, t.confidence, t.source req npa nxx, info⟩ =
      verdictOf P req (some (t, .text iana)) := by
  subst hnpa hnxx
  cases t <;> rfl

theorem Ts.parseE164_eq (req : ResolveRequest) :
    Ts.parseE164 P req.phoneE164 = (number P req).map fun n =>
      ⟨n.npa, n.nxx, n.npa ++ n.nxx, n.numberType, n⟩ := by
  rw [Ts.parseE164, number]
  by_cases hphone : req.phoneE164 = ""
  · simp [hphone]
  · rw [if_neg hphone, if_neg hphone]
    cases P.parse _ with
    | none => rfl
    | some n =>
      by_cases hlen : n.nsn.length < 10
      · simp [hlen]
      · have hlen' : 10 ≤ n.nsn.length := Nat.le_of_not_lt hlen
        simp [hlen, hlen', PhoneNumber.npa, PhoneNumber.nxx]

theorem Go.parseE164_eq (req : ResolveRequest) :
    (if req.phoneE164 = "" then none else Go.parseE164 P req.phoneE164) =
      (number P req).map fun n => ⟨n.npa, n.nxx, Go.parseUint (Go.bytes n.npa),
        Go.parseUint (Go.bytes n.nxx), Go.codeKey n.npa n.nxx, n.numberType, n⟩ := by
  rw [Go.parseE164, number, Go.safeParsePhone]
  by_cases hphone : req.phoneE164 = ""
  · simp [hphone]
  · rw [if_neg hphone, if_neg hphone]
    cases P.parse _ with
    | none => rfl
    | some n =>
      by_cases hlen : n.nsn.length < 10
      · simp [hlen]
      · have hlen' : 10 ≤ n.nsn.length := Nat.le_of_not_lt hlen
        simp [hlen, hlen', PhoneNumber.npa, PhoneNumber.nxx]

section

variable (tables : Tables) (campaigns : String → Option CampaignEntry) (now : Int)
  (req : ResolveRequest)

theorem Ts.campaignDefault_verdict :
    (Ts.campaignDefault P (Ts.preload tables campaigns) now req).verdict =
      verdictOf P req (firstAnswer (Ts.answer P tables campaigns now req) [.campaign]) := by
  have hcache : (Ts.preload tables campaigns).campaignCache = campaigns := rfl
  by_cases hid : req.campaignId = ""
  · rw [firstAnswer_of_none (by simp [Ts.answer, hid]), Ts.campaignDefault, if_pos hid]
    rfl
  · rw [Ts.campaignDefault, if_neg hid, hcache]
    cases hc : campaigns req.campaignId with
    | none =>
      rw [firstAnswer_of_none (by simp [Ts.answer, hid, liveTs, hc])]
      rfl
    | some cc =>
      by_cases hlive : now < cc.expiresAt
      · have hanswer : Ts.answer P tables campaigns now req .campaign = some (.text cc.iana) := by
          simp [Ts.answer, hid, liveTs, hc, hlive]
        rw [firstAnswer_of_some hanswer]
        simp only [if_pos hlive]
        exact Ts.verdict_found P req .campaign _ rfl rfl _ _ _
      · have hanswer : Ts.answer P tables campaigns now req .campaign = none := by
          simp [Ts.answer, hid, liveTs, hc, Option.filter, hlive]
        rw [firstAnswer_of_none hanswer]
        simp only [if_neg hlive]
        rfl

theorem Ts.stateDefault_verdict :
    (Ts.stateDefault P (Ts.preload tables campaigns) now req).verdict =
      verdictOf P req (firstAnswer (Ts.answer P tables campaigns now req) [.state, .campaign]) := by
  have hcampaign := Ts.campaignDefault_verdict P tables campaigns now req
  by_cases hskip : req.state = "" ∨ req.state ∈ splitStates
  · rw [firstAnswer_of_none (by simp only [Ts.answer, if_pos hskip]), Ts.stateDefault,
      if_pos hskip]
    exact hcampaign
  · have hanswer : Ts.answer P tables campaigns now req .state = Ts.stateIana req.state := by
      simp only [Ts.answer, if_neg hskip]
    rw [Ts.stateDefault, if_neg hskip]
    cases hiana : Ts.stateIana req.state with
    | none =>
      rw [firstAnswer_of_none (hanswer.trans hiana)]
      exact hcampaign
    | some iana =>
      rw [firstAnswer_of_some (hanswer.trans hiana)]
      exact Ts.verdict_found P req .state _ rfl rfl _ _ _

theorem Ts.phoneTiers_verdict {n : PhoneNumber} (hn : number P req = some n) :
    (Ts.phoneTiers P (Ts.preload tables campaigns) now req
      ⟨n.npa, n.nxx, n.npa ++ n.nxx, n.numberType, n⟩).verdict =
      verdictOf P req (firstAnswer (Ts.answer P tables campaigns now req)
        [.override, .nxx, .npa, .library, .state, .campaign]) := by
  have hstate := Ts.stateDefault_verdict P tables campaigns now req
  have hnpaText : (number P req).elim "" (·.npa) = n.npa := by rw [hn]; rfl
  have hnxxText : (number P req).elim "" (·.nxx) = n.nxx := by rw [hn]; rfl
  have hoverride : (Ts.preload tables campaigns).overrideCache (n.npa ++ n.nxx) =
      spelledZone tables.overrides n := tsLoad_apply tables.overrides n
  have hnxx : (Ts.preload tables campaigns).phoneCodesCache (n.npa ++ n.nxx) =
      spelledZone tables.phoneCodes n := tsLoad_apply tables.phoneCodes n
  have hnpa : (Ts.preload tables campaigns).npaOnlyCache n.npa =
      (tables.phoneCodes.find? fun row => decide (row.areaCode = n.npa)).map (·.tzIana) :=
    tsLoadNpa_apply tables.phoneCodes n.npa
  rw [Ts.phoneTiers]
  simp only [hoverride, hnxx, hnpa]
  cases ho : spelledZone tables.overrides n with
  | some iana =>
    have hanswer : Ts.answer P tables campaigns now req .override = some (.text iana) := by
      simp [Ts.answer, hn, ho]
    rw [firstAnswer_of_some hanswer]
    exact Ts.verdict_found P req .override _ hnpaText hnxxText _ _ _
  | none =>
    rw [firstAnswer_of_none (by simp [Ts.answer, hn, ho])]
    cases hx : spelledZone tables.phoneCodes n with
    | some iana =>
      have hanswer : Ts.answer P tables campaigns now req .nxx = some (.text iana) := by
        simp [Ts.answer, hn, hx]
      rw [firstAnswer_of_some hanswer]
      exact Ts.verdict_found P req .nxx _ hnpaText hnxxText _ _ _
    | none =>
      rw [firstAnswer_of_none (by simp [Ts.answer, hn, hx])]
      cases hp : tables.phoneCodes.find? fun row => decide (row.areaCode = n.npa) with
      | some row =>
        have hanswer : Ts.answer P tables campaigns now req .npa = some (.text row.tzIana) := by
          simp [Ts.answer, hn, hp]
        rw [firstAnswer_of_some hanswer]
        exact Ts.verdict_found P req .npa _ hnpaText hnxxText _ _ _
      | none =>
        rw [firstAnswer_of_none (by simp only [Ts.answer, hn, Option.bind_some, hp, Option.map_none])]
        simp only [Option.map_none, Ts.getTimezonesForNumber]
        cases hz : n.zones with
        | nil =>
          rw [firstAnswer_of_none (by simp [Ts.answer, hn, hz])]
          exact hstate
        | cons zone zones =>
          by_cases hvalid : P.intlAccepts zone = true
          · have hanswer : Ts.answer P tables campaigns now req .library = some (.text zone) := by
              simp [Ts.answer, hn, hz, Option.filter, hvalid]
            rw [firstAnswer_of_some hanswer]
            simp only [if_pos hvalid]
            exact Ts.verdict_found P req .library _ hnpaText hnxxText _ _ _
          · rw [firstAnswer_of_none (by simp [Ts.answer, hn, hz, Option.filter, hvalid])]
            simp only [if_neg hvalid]
            exact hstate

theorem Ts.afterZip_verdict :
    (Ts.afterZip P (Ts.preload tables campaigns) now req).verdict =
      verdictOf P req (firstAnswer (Ts.answer P tables campaigns now req)
        [.override, .nxx, .npa, .library, .state, .campaign]) := by
  have hstate := Ts.stateDefault_verdict P tables campaigns now req
  rw [Ts.afterZip, Ts.parseE164_eq]
  cases hn : number P req with
  | none =>
    rw [firstAnswer_of_none (by simp [Ts.answer, hn]), firstAnswer_of_none (by simp [Ts.answer, hn]),
      firstAnswer_of_none (by simp [Ts.answer, hn]), firstAnswer_of_none (by simp [Ts.answer, hn])]
    exact hstate
  | some n =>
    exact Ts.phoneTiers_verdict P tables campaigns now req hn

theorem Ts.afterKnown_verdict :
    (Ts.afterKnown P (Ts.preload tables campaigns) now req).verdict =
      verdictOf P req (firstAnswer (Ts.answer P tables campaigns now req)
        [.zip, .override, .nxx, .npa, .library, .state, .campaign]) := by
  have hafter := Ts.afterZip_verdict P tables campaigns now req
  have hcache : (Ts.preload tables campaigns).zipCodesCache (Ts.zipKey req.zip) =
      spelledZip tables.zipCodes req.zip := tsLoadZip_apply tables.zipCodes req.zip
  rw [Ts.afterKnown]
  by_cases hvalid : Ts.isValidUSZip req.zip = true
  · simp only [if_pos hvalid, hcache]
    cases hz : spelledZip tables.zipCodes req.zip with
    | some iana =>
      have hanswer : Ts.answer P tables campaigns now req .zip = some (.text iana) := by
        simp [Ts.answer, hvalid, hz]
      rw [firstAnswer_of_some hanswer]
      exact Ts.verdict_found P req .zip _ rfl rfl _ _ _
    | none =>
      rw [firstAnswer_of_none (by simp [Ts.answer, hz])]
      exact hafter
  · rw [firstAnswer_of_none (by simp [Ts.answer, hvalid])]
    simp only [if_neg hvalid]
    exact hafter

/-- The API's resolver is the cascade of its tiers. -/
theorem Ts.doResolve_verdict :
    (Ts.doResolve P (Ts.preload tables campaigns) now req).verdict =
      verdictOf P req (firstAnswer (Ts.answer P tables campaigns now req) Tier.order) := by
  rw [Ts.doResolve, Tier.order]
  by_cases hknown : req.knownTimezone ≠ "" ∧ P.intlAccepts req.knownTimezone = true
  · have hanswer : Ts.answer P tables campaigns now req .known =
        some (.text req.knownTimezone) := if_pos hknown
    rw [firstAnswer_of_some hanswer, if_pos hknown]
    exact Ts.verdict_found P req .known _ rfl rfl _ _ _
  · have hanswer : Ts.answer P tables campaigns now req .known = none := if_neg hknown
    rw [firstAnswer_of_none hanswer, if_neg hknown]
    exact Ts.afterKnown_verdict P tables campaigns now req

/-- The answers of the dialer, as values of the API's field. -/
def Go.said (t : Tier) : Option Ts.Iana := (Go.answer P tables campaigns now req t).map .text

variable {tables campaigns now req} {r : Go.Resolver loc}

theorem Go.caches_of_preload (h : Go.preload P tables campaigns = some r) :
    Go.loadZipCodes P tables.zipCodes = some r.zipCodesCache ∧
      r.phoneCodesCache = Go.loadPhoneCodes P tables.phoneCodes ∧
      r.overrideCache = Go.loadOverrides P tables.overrides ∧
      r.npaOnlyCache = Go.loadNpaOnly P tables.phoneCodes ∧ r.campaignLRU = campaigns := by
  obtain ⟨zipCodes, hzip, rfl⟩ := Option.map_eq_some_iff.1 h
  exact ⟨hzip, rfl, rfl, rfl, rfl⟩

theorem Go.campaignDefault_verdict (h : r.campaignLRU = campaigns)
    (parsed : Option Go.ParsedNumber) :
    (Go.campaignDefault P r now req parsed).verdict =
      verdictOf P req (firstAnswer (Go.said P tables campaigns now req) [.campaign]) := by
  have hget : Go.campaignGet r now req.campaignId = liveGo campaigns now req.campaignId := by
    rw [Go.campaignGet, liveGo, h]
    cases campaigns req.campaignId with
    | none => rfl
    | some e =>
      by_cases hlate : e.expiresAt < now
      · simp [Option.filter, hlate]
      · simp [Option.filter, hlate]
  rw [Go.campaignDefault, hget]
  by_cases hid : req.campaignId = ""
  · rw [firstAnswer_of_none (by simp [Go.said, Go.answer, hid]), if_pos hid]
    rfl
  · rw [if_neg hid]
    cases hlive : liveGo campaigns now req.campaignId with
    | none =>
      rw [firstAnswer_of_none (by simp [Go.said, Go.answer, hlive])]
      rfl
    | some iana =>
      by_cases hempty : iana = ""
      · rw [firstAnswer_of_none (by simp [Go.said, Go.answer, hlive, hempty, Option.filter])]
        simp only [if_pos hempty]
        rfl
      · simp only [if_neg hempty]
        cases hload : P.loadLocation iana with
        | none =>
          rw [firstAnswer_of_none (by
            simp [Go.said, Go.answer, hlive, Loads, hload, Option.filter])]
          rfl
        | some l =>
          have hanswer : Go.said P tables campaigns now req .campaign = some (.text iana) := by
            simp [Go.said, Go.answer, hid, hlive, Loads, hload, Option.filter, hempty]
          rw [firstAnswer_of_some hanswer]
          exact Go.verdict_found P req .campaign _ rfl rfl _ _

theorem Go.stateDefault_verdict (h : r.campaignLRU = campaigns)
    (parsed : Option Go.ParsedNumber) :
    (Go.stateDefault P r now req parsed).verdict =
      verdictOf P req (firstAnswer (Go.said P tables campaigns now req) [.state, .campaign]) := by
  have hcampaign : (Go.campaignDefault P r now req parsed).verdict = verdictOf P req
      (firstAnswer (Go.said P tables campaigns now req) [.campaign]) :=
    Go.campaignDefault_verdict P h parsed
  rw [Go.stateDefault]
  by_cases hempty : req.state = ""
  · rw [firstAnswer_of_none (by simp [Go.said, Go.answer, hempty]), if_pos hempty]
    exact hcampaign
  · rw [if_neg hempty]
    cases hstate : singleTzStateMap.lookup req.state with
    | none =>
      rw [firstAnswer_of_none (by simp [Go.said, Go.answer, hstate])]
      exact hcampaign
    | some iana =>
      simp only
      cases hload : P.loadLocation iana with
      | none =>
        rw [firstAnswer_of_none (by
          simp [Go.said, Go.answer, hstate, Loads, hload, Option.filter])]
        exact hcampaign
      | some l =>
        have hanswer : Go.said P tables campaigns now req .state = some (.text iana) := by
          simp [Go.said, Go.answer, hempty, hstate, Loads, hload, Option.filter]
        rw [firstAnswer_of_some hanswer]
        exact Go.verdict_found P req .state _ rfl rfl _ _

theorem Go.phoneTiers_verdict (h : Go.preload P tables campaigns = some r) {n : PhoneNumber}
    (hn : number P req = some n) :
    (Go.phoneTiers P r now req ⟨n.npa, n.nxx, Go.parseUint (Go.bytes n.npa),
        Go.parseUint (Go.bytes n.nxx), Go.codeKey n.npa n.nxx, n.numberType, n⟩).verdict =
      verdictOf P req (firstAnswer (Go.said P tables campaigns now req)
        [.override, .nxx, .npa, .library, .state, .campaign]) := by
  obtain ⟨-, hcodes, hoverrides, hnpas, hcampaigns⟩ := Go.caches_of_preload P h
  have hnpaText : (number P req).elim "" (·.npa) = n.npa := by rw [hn]; rfl
  have hnxxText : (number P req).elim "" (·.nxx) = n.nxx := by rw [hn]; rfl
  have hoverride : Go.said P tables campaigns now req .override =
      (r.overrideCache (Go.codeKey n.npa n.nxx)).map fun e => .text e.iana := by
    rw [hoverrides, Go.loadOverrides, Go.said, Go.answer, hn, Option.bind_some,
      ← goLoad_apply, Option.map_map]
    rfl
  have hnxx : Go.said P tables campaigns now req .nxx =
      (r.phoneCodesCache (Go.codeKey n.npa n.nxx)).map fun e => .text e.iana := by
    rw [hcodes, Go.said, Go.answer, hn, Option.bind_some, ← goLoad_apply, Option.map_map]
    rfl
  have hnpa : Go.said P tables campaigns now req .npa =
      (r.npaOnlyCache n.npa).map fun e => .text e.iana := by
    rw [hnpas, Go.said, Go.answer, hn, Option.bind_some, ← goLoadNpa_apply, Option.map_map]
    rfl
  have hstate : ∀ parsed, (Go.stateDefault P r now req parsed).verdict = verdictOf P req
      (firstAnswer (Go.said P tables campaigns now req) [.state, .campaign]) :=
    Go.stateDefault_verdict P hcampaigns
  rw [Go.phoneTiers]
  simp only
  cases ho : r.overrideCache (Go.codeKey n.npa n.nxx) with
  | some e =>
    rw [ho] at hoverride
    rw [firstAnswer_of_some hoverride]
    exact Go.verdict_found P req .override _ hnpaText hnxxText _ _
  | none =>
    rw [ho] at hoverride
    rw [firstAnswer_of_none hoverride]
    cases hx : r.phoneCodesCache (Go.codeKey n.npa n.nxx) with
    | some e =>
      rw [hx] at hnxx
      rw [firstAnswer_of_some hnxx]
      exact Go.verdict_found P req .nxx _ hnpaText hnxxText _ _
    | none =>
      rw [hx] at hnxx
      rw [firstAnswer_of_none hnxx]
      cases hp : r.npaOnlyCache n.npa with
      | some e =>
        rw [hp] at hnpa
        rw [firstAnswer_of_some hnpa]
        exact Go.verdict_found P req .npa _ hnpaText hnxxText _ _
      | none =>
        rw [hp] at hnpa
        rw [firstAnswer_of_none hnpa]
        cases hz : n.zones with
        | nil =>
          rw [firstAnswer_of_none (by simp [Go.said, Go.answer, hn, hz])]
          exact hstate _
        | cons zone zones =>
          simp only
          cases hload : P.loadLocation zone with
          | some l =>
            have hanswer : Go.said P tables campaigns now req .library = some (.text zone) := by
              simp [Go.said, Go.answer, hn, hz, Option.filter, Loads, hload]
            rw [firstAnswer_of_some hanswer]
            exact Go.verdict_found P req .library _ hnpaText hnxxText _ _
          | none =>
            rw [firstAnswer_of_none (by
              simp [Go.said, Go.answer, hn, hz, Option.filter, Loads, hload])]
            exact hstate _

theorem Go.afterZip_verdict (h : Go.preload P tables campaigns = some r) :
    (Go.afterZip P r now req
      (if req.phoneE164 = "" then none else Go.parseE164 P req.phoneE164)).verdict =
      verdictOf P req (firstAnswer (Go.said P tables campaigns now req)
        [.override, .nxx, .npa, .library, .state, .campaign]) := by
  obtain ⟨-, -, -, -, hcampaigns⟩ := Go.caches_of_preload P h
  rw [Go.parseE164_eq]
  cases hn : number P req with
  | none =>
    have hsilent : ∀ t ∈ [Tier.override, .nxx, .npa, .library],
        Go.said P tables campaigns now req t = none := by
      simp [Go.said, Go.answer, hn]
    rw [firstAnswer_of_none (hsilent _ (by simp)), firstAnswer_of_none (hsilent _ (by simp)),
      firstAnswer_of_none (hsilent _ (by simp)), firstAnswer_of_none (hsilent _ (by simp))]
    exact Go.stateDefault_verdict P hcampaigns none
  | some n => exact Go.phoneTiers_verdict P h hn

theorem Go.zipKey_of_valid {zip : String} (hvalid : Go.isValidUSZip zip = true) :
    ∃ k, Go.zipKey zip = some k := by
  have hlen : 5 ≤ (Go.bytes zip).length := by
    by_contra hshort
    have hfive : (Go.bytes zip).length ≠ 5 := by omega
    have hten : (Go.bytes zip).length ≠ 10 := by omega
    simp [Go.isValidUSZip, hfive, hten] at hvalid
  exact ⟨_, if_neg (Nat.not_lt.2 hlen)⟩

theorem Go.afterKnown_verdict (h : Go.preload P tables campaigns = some r) :
    (Go.afterKnown P r now req).verdict =
      verdictOf P req (firstAnswer (Go.said P tables campaigns now req)
        [.zip, .override, .nxx, .npa, .library, .state, .campaign]) := by
  obtain ⟨hzips, -, -, -, -⟩ := Go.caches_of_preload P h
  have hafter : (Go.afterZip P r now req _).verdict = verdictOf P req _ :=
    Go.afterZip_verdict P h
  rw [Go.afterKnown]
  by_cases hvalid : Go.isValidUSZip req.zip = true
  · obtain ⟨k, hk⟩ := Go.zipKey_of_valid hvalid
    have hzip : Go.said P tables campaigns now req .zip =
        (r.zipCodesCache k).map fun e => .text e.iana := by
      have hload := goLoadZip_apply P hzips k
      rw [Go.said, Go.answer, if_pos hvalid, numericZip, hk, ← hload, Option.map_map]
      rfl
    simp only [if_pos hvalid, hk, Option.bind_some]
    cases hz : r.zipCodesCache k with
    | some e =>
      rw [hz] at hzip
      rw [firstAnswer_of_some hzip]
      exact Go.verdict_found P req .zip _ rfl rfl _ _
    | none =>
      rw [hz] at hzip
      rw [firstAnswer_of_none hzip]
      exact hafter
  · rw [firstAnswer_of_none (by simp [Go.said, Go.answer, hvalid])]
    simp only [if_neg hvalid]
    exact hafter

/-- The dialer's resolver is the cascade of its tiers. -/
theorem Go.resolve_verdict (h : Go.preload P tables campaigns = some r) :
    (Go.resolve P r now req).verdict =
      verdictOf P req (firstAnswer (Go.said P tables campaigns now req) Tier.order) := by
  have hafter : (Go.afterKnown P r now req).verdict = verdictOf P req _ :=
    Go.afterKnown_verdict P h
  rw [Go.resolve, Tier.order]
  by_cases hempty : req.knownTimezone = ""
  · rw [firstAnswer_of_none (by simp [Go.said, Go.answer, hempty]), if_pos hempty]
    exact hafter
  · rw [if_neg hempty]
    cases hload : P.loadLocation req.knownTimezone with
    | none =>
      rw [firstAnswer_of_none (by simp [Go.said, Go.answer, Loads, hload])]
      exact hafter
    | some l =>
      have hanswer : Go.said P tables campaigns now req .known =
          some (.text req.knownTimezone) := by
        simp [Go.said, Go.answer, hempty, Loads, hload]
      rw [firstAnswer_of_some hanswer]
      exact Go.verdict_found P req .known _ rfl rfl _ _

end

end Agreement

end Tz

end Vici2
