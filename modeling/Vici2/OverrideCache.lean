import Vici2.Runs
import Vici2.TzCascade

/-! The override map of the dialer's resolver, which two kinds of calls replace: one copies
the map and sets the entry of an exchange, the other builds it from the whole table. -/

namespace Vici2

namespace Tz

open Go (CacheEntry codeKey)

abbrev PhoneMap (loc : Type) := Nat → Option (CacheEntry loc)

def rowsAt (rows : List CodeRow) (key : Nat) : List CodeRow :=
  rows.filter fun row => codeKey row.areaCode row.exchangeCode = key

def IsRow (npa nxx : String) (row : CodeRow) : Prop := row.areaCode = npa ∧ row.exchangeCode = nxx

instance (npa nxx : String) : DecidablePred (IsRow npa nxx) := fun _ =>
  inferInstanceAs (Decidable (_ ∧ _))

/-- `phone_codes_overrides`, with its primary key, and with zones that load. -/
structure OverridesTable {loc : Type} (P : Platform loc) where
  rows : List CodeRow
  primaryKey : rows.Pairwise fun row row' => ¬ IsRow row.areaCode row.exchangeCode row'
  valid : ∀ row ∈ rows, Loads P row.tzIana

namespace OverridesTable

variable {loc : Type} {P : Platform loc}

def find (t : OverridesTable P) (npa nxx : String) : Option String :=
  (t.rows.find? fun row => IsRow npa nxx row).map CodeRow.tzIana

def delete (t : OverridesTable P) (npa nxx : String) : OverridesTable P where
  rows := t.rows.filter fun row => ¬ IsRow npa nxx row
  primaryKey := t.primaryKey.filter _
  valid row hrow := t.valid row (List.mem_of_mem_filter hrow)

def upsert (t : OverridesTable P) (npa nxx tzIANA : String) (h : Loads P tzIANA) :
    OverridesTable P where
  rows := (t.delete npa nxx).rows ++ [⟨npa, nxx, tzIANA⟩]
  primaryKey := by
    rw [List.pairwise_append]
    refine ⟨(t.delete npa nxx).primaryKey, List.pairwise_singleton _ _, ?_⟩
    intro row hrow row' hrow'
    obtain rfl := List.mem_singleton.1 hrow'
    have hother : ¬ IsRow npa nxx row := by simpa using (List.mem_filter.1 hrow).2
    exact fun hsame => hother ⟨hsame.1.symm, hsame.2.symm⟩
  valid row hrow := by
    rcases List.mem_append.1 hrow with hrow | hrow
    · exact (t.delete npa nxx).valid row hrow
    · obtain rfl := List.mem_singleton.1 hrow
      exact h

end OverridesTable

/-- A call under way: `reloadNXX` once it has read its row, and then the map; `loadOverrides`
once it has read the rows. -/
inductive OverrideCall (loc : Type)
  | queriedNXX (npa nxx : String) (tzIANA : Option String)
  | loadedNXX (npa nxx : String) (tzIANA : Option String) (old : PhoneMap loc)
  | queriedOverrides (rows : List CodeRow)

def OverrideCall.Reloads {loc : Type} (key : Nat) : OverrideCall loc → Prop
  | .queriedNXX npa nxx _ => codeKey npa nxx = key
  | .loadedNXX npa nxx _ _ => codeKey npa nxx = key
  | .queriedOverrides _ => False

/-- The override map with its table and the calls under way. `changed` tells the rows that no
`reloadNXX` has read since their last change. -/
structure OverrideState {loc : Type} (P : Platform loc) (ι : Type) where
  table : OverridesTable P
  overrideCache : PhoneMap loc
  calls : ι → Option (OverrideCall loc)
  changed : String × String → Bool

/-- A call whose query fails leaves everything as it is, and does not count as a call. -/
inductive OverrideAction (ι : Type)
  | upsertOverride (npa nxx tzIANA : String)
  | deleteOverride (npa nxx : String)
  | queryNXX (i : ι) (npa nxx : String)
  | loadMap (i : ι)
  | storeNXX (i : ι)
  | queryOverrides (i : ι)
  | storeOverrides (i : ι)

section Model

variable {loc : Type} (P : Platform loc)

/-- The entry that `reloadNXX` sets, or `none` where it deletes the one there is. -/
def reloadedEntry (tzIANA : Option String) : Option (CacheEntry loc) := tzIANA.bind (entry P)

variable {P} {ι : Type} [DecidableEq ι]

namespace OverrideState

/-- After `Preload`. -/
def start (ι : Type) (t : OverridesTable P) : OverrideState P ι where
  table := t
  overrideCache := Go.loadOverrides P t.rows
  calls _ := none
  changed _ := false

def setCall (s : OverrideState P ι) (i : ι) (call : Option (OverrideCall loc)) :
    OverrideState P ι :=
  { s with calls := Function.update s.calls i call }

def changeRow (s : OverrideState P ι) (npa nxx : String) (t : OverridesTable P) :
    OverrideState P ι :=
  { s with
    table := t
    changed := Function.update s.changed (npa, nxx) true }

def step (s : OverrideState P ι) : OverrideAction ι → OverrideState P ι
  | .upsertOverride npa nxx tzIANA =>
    if h : Loads P tzIANA then
      if s.table.find npa nxx = some tzIANA then s
      else s.changeRow npa nxx (s.table.upsert npa nxx tzIANA h)
    else s
  | .deleteOverride npa nxx =>
    if s.table.find npa nxx = none then s
    else s.changeRow npa nxx (s.table.delete npa nxx)
  | .queryNXX i npa nxx =>
    match s.calls i with
    | none =>
      { s.setCall i (some (.queriedNXX npa nxx (s.table.find npa nxx))) with
        changed := Function.update s.changed (npa, nxx) false }
    | some _ => s
  | .loadMap i =>
    match s.calls i with
    | some (.queriedNXX npa nxx tzIANA) =>
      if ∀ z ∈ tzIANA, Loads P z then
        s.setCall i (some (.loadedNXX npa nxx tzIANA s.overrideCache))
      else s.setCall i none
    | _ => s
  | .storeNXX i =>
    match s.calls i with
    | some (.loadedNXX npa nxx tzIANA old) =>
      { s.setCall i none with
        overrideCache := Function.update old (codeKey npa nxx) (reloadedEntry P tzIANA) }
    | _ => s
  | .queryOverrides i =>
    match s.calls i with
    | none => s.setCall i (some (.queriedOverrides s.table.rows))
    | some _ => s
  | .storeOverrides i =>
    match s.calls i with
    | some (.queriedOverrides rows) =>
      { s.setCall i none with overrideCache := Go.loadOverrides P rows }
    | _ => s

/-- A `reloadNXX` for the key is under way, or is still to come after a change. -/
def Due (s : OverrideState P ι) (key : Nat) : Prop :=
  (∃ npa nxx, s.changed (npa, nxx) = true ∧ codeKey npa nxx = key) ∨
    ∃ i call, s.calls i = some call ∧ call.Reloads key

/-- What a call has read before its store is as it was, except where another reload is due: its
rows in the table, and in the map the entries that it does not set. -/
def StoreOk (s : OverrideState P ι) : OverrideAction ι → Prop
  | .storeNXX i =>
    match s.calls i with
    | some (.loadedNXX npa nxx tzIANA old) =>
      (rowsAt s.table.rows (codeKey npa nxx) = tzIANA.toList.map (CodeRow.mk npa nxx) ∨
        (s.setCall i none).Due (codeKey npa nxx)) ∧
      ∀ key ≠ codeKey npa nxx, old key = s.overrideCache key ∨ (s.setCall i none).Due key
    | _ => True
  | .storeOverrides i =>
    match s.calls i with
    | some (.queriedOverrides rows) =>
      ∀ key, rowsAt rows key = rowsAt s.table.rows key ∨ (s.setCall i none).Due key
    | _ => True
  | _ => True

/-- All calls are finished, and a `reloadNXX` has followed every change of a row. -/
def Finished (s : OverrideState P ι) : Prop :=
  (∀ i, s.calls i = none) ∧ ∀ code, s.changed code = false

end OverrideState

end Model

section Loads

variable {loc : Type} {P : Platform loc} {rows rows' : List CodeRow} {npa nxx : String} {key : Nat}

theorem loadOverrides_apply (P : Platform loc) (rows : List CodeRow) (key : Nat) :
    Go.loadOverrides P rows key =
      (lastRow (fun row => (entry P row.tzIana).isSome) (rowsAt rows key)).bind
        fun row => entry P row.tzIana := by
  rw [Go.loadOverrides, Go.loadPhoneCodes,
    foldl_update_apply (fun row : CodeRow => codeKey row.areaCode row.exchangeCode)
      (fun row => entry P row.tzIana)]
  · rw [lastRow, lastRow, rowsAt, List.filter_filter]
  · intro m row hrow
    simp [loadLocation_of_entry_none P hrow]
  · intro m row v hrow
    obtain ⟨hl, hv⟩ := loadLocation_of_entry P hrow
    rw [hl, hv]

theorem loadOverrides_congr (h : rowsAt rows key = rowsAt rows' key) :
    Go.loadOverrides P rows key = Go.loadOverrides P rows' key := by
  rw [loadOverrides_apply, loadOverrides_apply, h]

theorem loadOverrides_of_row {tzIANA : Option String}
    (h : rowsAt rows key = tzIANA.toList.map (CodeRow.mk npa nxx)) :
    Go.loadOverrides P rows key = reloadedEntry P tzIANA := by
  rw [loadOverrides_apply, h]
  cases tzIANA with
  | none => rfl
  | some z =>
    have hrow : [CodeRow.mk npa nxx z] = (some z).toList.map (CodeRow.mk npa nxx) := rfl
    rw [← hrow]
    cases hz : entry P z with
    | none => simp [lastRow, reloadedEntry, hz]
    | some e => simp [lastRow, reloadedEntry, hz]

theorem rowsAt_delete (t : OverridesTable P) (h : key ≠ codeKey npa nxx) :
    rowsAt (t.delete npa nxx).rows key = rowsAt t.rows key := by
  show (t.rows.filter _).filter _ = t.rows.filter _
  rw [List.filter_filter]
  apply List.filter_congr
  intro row _
  by_cases hkey : codeKey row.areaCode row.exchangeCode = key
  · have hother : ¬ IsRow npa nxx row := by
      intro hrow
      rw [hrow.1, hrow.2] at hkey
      exact h hkey.symm
    simp [hkey, hother]
  · simp [hkey]

theorem rowsAt_upsert (t : OverridesTable P) (h : key ≠ codeKey npa nxx) {tzIANA : String}
    (hz : Loads P tzIANA) : rowsAt (t.upsert npa nxx tzIANA hz).rows key = rowsAt t.rows key := by
  have hnew : rowsAt [CodeRow.mk npa nxx tzIANA] key = [] := by
    simp [rowsAt, Ne.symm h]
  have happend : rowsAt (t.upsert npa nxx tzIANA hz).rows key =
      rowsAt (t.delete npa nxx).rows key ++ rowsAt [CodeRow.mk npa nxx tzIANA] key :=
    List.filter_append _ _
  rw [happend, hnew, List.append_nil, rowsAt_delete t h]

/-- Three digits, as area codes and exchanges have them. -/
def IsCode (s : String) : Prop :=
  ∃ a b c, a < 10 ∧ b < 10 ∧ c < 10 ∧ Go.bytes s = [48 + a, 48 + b, 48 + c]

theorem bytes_inj {s s' : String} (h : Go.bytes s = Go.bytes s') : s = s' := by
  have hinj : Function.Injective UInt8.toNat := fun x y hxy => UInt8.toNat_inj.1 hxy
  exact Audit.utf8_inj (List.map_injective_iff.2 hinj h)

theorem parseUint_digits {a b c : Nat} (ha : a < 10) (hb : b < 10) (hc : c < 10) :
    Go.parseUint [48 + a, 48 + b, 48 + c] = 100 * a + 10 * b + c := by
  have hdigit : ∀ d : Nat, d < 10 → isDigitCode (48 + d) = true := by
    intro d hd
    simp [isDigitCode]
    omega
  have hsmall : ∀ n : Nat, n < 1000 → ¬ 4294967295 < n := by
    intro n hn
    omega
  rw [Go.parseUint, Go.parseUintFrom, if_pos (hdigit a ha), if_neg (by omega), Go.parseUintFrom,
    if_pos (hdigit b hb), if_neg (by omega), Go.parseUintFrom, if_pos (hdigit c hc),
    if_neg (by omega), Go.parseUintFrom]
  omega

theorem codeKey_inj {npa nxx npa' nxx' : String} (hnpa : IsCode npa) (hnxx : IsCode nxx)
    (hnpa' : IsCode npa') (hnxx' : IsCode nxx') (h : codeKey npa nxx = codeKey npa' nxx') :
    npa = npa' ∧ nxx = nxx' := by
  obtain ⟨a, b, c, ha, hb, hc, hbytes⟩ := hnpa
  obtain ⟨d, e, f, hd, he, hf, hbytes₁⟩ := hnxx
  obtain ⟨a', b', c', ha', hb', hc', hbytes'⟩ := hnpa'
  obtain ⟨d', e', f', hd', he', hf', hbytes₁'⟩ := hnxx'
  simp only [codeKey, hbytes, hbytes₁, hbytes', hbytes₁', parseUint_digits, ha, hb, hc, hd, he,
    hf, ha', hb', hc', hd', he', hf'] at h
  rw [Nat.mod_eq_of_lt (by omega), Nat.mod_eq_of_lt (by omega)] at h
  have hnpaCode : 100 * a + 10 * b + c = 100 * a' + 10 * b' + c' := by omega
  have hnxxCode : 100 * d + 10 * e + f = 100 * d' + 10 * e' + f' := by omega
  have hsame : a = a' ∧ b = b' ∧ c = c' ∧ d = d' ∧ e = e' ∧ f = f' := by omega
  obtain ⟨rfl, rfl, rfl, rfl, rfl, rfl⟩ := hsame
  exact ⟨bytes_inj (hbytes.trans hbytes'.symm), bytes_inj (hbytes₁.trans hbytes₁'.symm)⟩

theorem filter_eq_toList_find {α : Type*} (p : α → Bool) {l : List α}
    (h : l.Pairwise fun a b => ¬ (p a = true ∧ p b = true)) : l.filter p = (l.find? p).toList := by
  induction l with
  | nil => rfl
  | cons a l ih =>
    obtain ⟨hhead, htail⟩ := List.pairwise_cons.1 h
    cases ha : p a with
    | true =>
      have hrest : l.filter p = [] := by
        rw [List.filter_eq_nil_iff]
        exact fun b hb hpb => hhead b hb ⟨ha, hpb⟩
      simp [ha, hrest]
    | false => simp [ha, ih htail]

/-- Where all codes have three digits, the rows under the key of an exchange are its row. -/
theorem rowsAt_codeKey (t : OverridesTable P)
    (hrows : ∀ row ∈ t.rows, IsCode row.areaCode ∧ IsCode row.exchangeCode) (hnpa : IsCode npa)
    (hnxx : IsCode nxx) :
    rowsAt t.rows (codeKey npa nxx) = (t.find npa nxx).toList.map (CodeRow.mk npa nxx) := by
  have hfilter : rowsAt t.rows (codeKey npa nxx) = t.rows.filter fun row => IsRow npa nxx row := by
    apply List.filter_congr
    intro row hrow
    have hiff : codeKey row.areaCode row.exchangeCode = codeKey npa nxx ↔ IsRow npa nxx row := by
      constructor
      · exact codeKey_inj (hrows row hrow).1 (hrows row hrow).2 hnpa hnxx
      · intro h
        rw [h.1, h.2]
    simp only [hiff]
  have hunique : t.rows.Pairwise fun row row' =>
      ¬ (decide (IsRow npa nxx row) = true ∧ decide (IsRow npa nxx row') = true) := by
    refine t.primaryKey.imp ?_
    intro row row' hkey hboth
    simp only [decide_eq_true_eq] at hboth
    exact hkey ⟨hboth.2.1.trans hboth.1.1.symm, hboth.2.2.trans hboth.1.2.symm⟩
  rw [hfilter, filter_eq_toList_find _ hunique, OverridesTable.find]
  cases hfind : t.rows.find? fun row => IsRow npa nxx row with
  | none => rfl
  | some row =>
    have hrow : IsRow npa nxx row := by simpa using List.find?_some hfind
    obtain ⟨rfl, rfl⟩ := hrow
    rfl
end Loads

namespace OverrideState

variable {loc ι : Type} {P : Platform loc} {s : OverrideState P ι}

/-- The map has what the table says, except where a reload is due. -/
structure Settled (s : OverrideState P ι) : Prop where
  entries : ∀ key, s.overrideCache key = Go.loadOverrides P s.table.rows key ∨ s.Due key
  loads : ∀ i npa nxx z, s.calls i = some (.queriedNXX npa nxx (some z)) → Loads P z

theorem start_settled (t : OverridesTable P) : (start ι t).Settled where
  entries _ := Or.inl rfl
  loads _ _ _ _ h := nomatch h

theorem Settled.converged (h : s.Settled) (hfinished : s.Finished) :
    s.overrideCache = Go.loadOverrides P s.table.rows := by
  funext key
  rcases h.entries key with heq | ⟨npa, nxx, hrow, -⟩ | ⟨i, call, hcall, -⟩
  · exact heq
  · rw [hfinished.2 (npa, nxx)] at hrow
    cases hrow
  · rw [hfinished.1 i] at hcall
    cases hcall

theorem Settled.changeRow (h : s.Settled) {npa nxx : String} {t : OverridesTable P}
    (hother : ∀ key ≠ codeKey npa nxx, rowsAt t.rows key = rowsAt s.table.rows key) :
    (s.changeRow npa nxx t).Settled where
  entries key := by
    by_cases hkey : key = codeKey npa nxx
    · exact Or.inr (Or.inl ⟨npa, nxx, Function.update_self _ _ _, hkey.symm⟩)
    · rcases h.entries key with heq | ⟨npa', nxx', hrow, hkey'⟩ | hcall
      · exact Or.inl (heq.trans (loadOverrides_congr (hother key hkey)).symm)
      · refine Or.inr (Or.inl ⟨npa', nxx', ?_, hkey'⟩)
        have hne : (npa', nxx') ≠ (npa, nxx) := by
          intro hsame
          obtain ⟨rfl, rfl⟩ := Prod.mk.inj hsame
          exact hkey hkey'.symm
        exact (Function.update_of_ne hne _ _).trans hrow
      · exact Or.inr (Or.inr hcall)
  loads := h.loads

variable [DecidableEq ι]

/-- Another call takes the place of one that reloads no other key. -/
theorem Due.setCall {i : ι} {new : Option (OverrideCall loc)} {key : Nat} (h : s.Due key)
    (hnew : ∀ call, s.calls i = some call → call.Reloads key →
      ∃ call', new = some call' ∧ call'.Reloads key) : (s.setCall i new).Due key := by
  rcases h with hrow | ⟨j, call, hcall, hreloads⟩
  · exact Or.inl hrow
  · by_cases hj : j = i
    · subst hj
      obtain ⟨call', rfl, hcall'⟩ := hnew call hcall hreloads
      exact Or.inr ⟨j, call', Function.update_self _ _ _, hcall'⟩
    · exact Or.inr ⟨j, call, (Function.update_of_ne hj _ _).trans hcall, hreloads⟩

theorem Settled.setCall (h : s.Settled) {i : ι} {new : Option (OverrideCall loc)}
    (hnew : ∀ key call, s.calls i = some call → call.Reloads key →
      ∃ call', new = some call' ∧ call'.Reloads key)
    (hloads : ∀ npa nxx z, new = some (.queriedNXX npa nxx (some z)) → Loads P z) :
    (s.setCall i new).Settled where
  entries key := by
    rcases h.entries key with heq | hdue
    · exact Or.inl heq
    · exact Or.inr (hdue.setCall (hnew key))
  loads j npa nxx z hj := by
    rcases update_some_cases hj with heq | hold
    · exact hloads npa nxx z heq
    · exact h.loads j npa nxx z hold

/-- The call that reads a row is due for it from then on. -/
theorem Settled.queryNXX (h : s.Settled) {i : ι} (hi : s.calls i = none) (npa nxx : String) :
    (s.step (.queryNXX i npa nxx)).Settled := by
  have hcall : (s.setCall i (some (.queriedNXX npa nxx (s.table.find npa nxx)))).Settled := by
    refine h.setCall (fun key call hcall => ?_) (fun npa' nxx' z heq => ?_)
    · rw [hi] at hcall
      cases hcall
    · obtain ⟨rfl, rfl, hfind⟩ := OverrideCall.queriedNXX.inj (Option.some.inj heq)
      obtain ⟨row, hrow, rfl⟩ := Option.map_eq_some_iff.1 hfind
      exact s.table.valid row (List.mem_of_find?_eq_some hrow)
  have hstep : s.step (.queryNXX i npa nxx) =
      { s.setCall i (some (.queriedNXX npa nxx (s.table.find npa nxx))) with
        changed := Function.update s.changed (npa, nxx) false } := by
    simp only [step, hi]
  rw [hstep]
  refine ⟨fun key => ?_, hcall.loads⟩
  rcases hcall.entries key with heq | ⟨npa', nxx', hrow, hkey⟩ | hother
  · exact Or.inl heq
  · right
    by_cases hsame : (npa', nxx') = (npa, nxx)
    · obtain ⟨rfl, rfl⟩ := Prod.mk.inj hsame
      exact Or.inr ⟨i, _, Function.update_self _ _ _, hkey⟩
    · exact Or.inl ⟨npa', nxx', (Function.update_of_ne hsame _ _).trans hrow, hkey⟩
  · exact Or.inr (Or.inr hother)

theorem Settled.loadMap (h : s.Settled) (i : ι) : (s.step (.loadMap i)).Settled := by
  simp only [step]
  split
  · next npa nxx tzIANA hcall =>
    have hloads : ∀ z ∈ tzIANA, Loads P z := by
      intro z hz
      exact h.loads i npa nxx z (by rw [hcall, hz])
    rw [if_pos hloads]
    refine h.setCall (fun key call hi hreloads => ?_) (fun npa' nxx' z heq => ?_)
    · obtain rfl := Option.some.inj (hcall.symm.trans hi)
      exact ⟨_, rfl, hreloads⟩
    · cases heq
  · exact h

/-- A store keeps the map settled if each entry that is not what the table says is due to
another call. -/
theorem Settled.store (h : s.Settled) (i : ι) {fresh : PhoneMap loc}
    (hfresh : ∀ key, fresh key = Go.loadOverrides P s.table.rows key ∨ (s.setCall i none).Due key) :
    Settled { s.setCall i none with overrideCache := fresh } where
  entries := hfresh
  loads j npa nxx z hj := by
    rcases update_some_cases hj with heq | hold
    · cases heq
    · exact h.loads j npa nxx z hold

theorem Settled.storeNXX (h : s.Settled) {i : ι} (hok : s.StoreOk (.storeNXX i)) :
    (s.step (.storeNXX i)).Settled := by
  cases hi : s.calls i with
  | none =>
    simp only [step, hi]
    exact h
  | some call =>
    cases call with
    | loadedNXX npa nxx tzIANA old =>
      simp only [StoreOk, hi] at hok
      obtain ⟨hrow, hmap⟩ := hok
      simp only [step, hi]
      refine h.store i fun key => ?_
      by_cases hkey : key = codeKey npa nxx
      · subst hkey
        rw [Function.update_self]
        rcases hrow with hread | hdue
        · exact Or.inl (loadOverrides_of_row hread).symm
        · exact Or.inr hdue
      · rw [Function.update_of_ne hkey]
        rcases hmap key hkey with hsame | hdue
        · rw [hsame]
          rcases h.entries key with heq | hdue
          · exact Or.inl heq
          · refine Or.inr (hdue.setCall ?_)
            -- the call that ends here reloads another key
            intro call hcall hreloads
            obtain rfl := Option.some.inj (hi.symm.trans hcall)
            exact absurd hreloads.symm hkey
        · exact Or.inr hdue
    | queriedNXX npa nxx tzIANA =>
      simp only [step, hi]
      exact h
    | queriedOverrides rows =>
      simp only [step, hi]
      exact h

theorem Settled.storeOverrides (h : s.Settled) {i : ι} (hok : s.StoreOk (.storeOverrides i)) :
    (s.step (.storeOverrides i)).Settled := by
  cases hi : s.calls i with
  | none =>
    simp only [step, hi]
    exact h
  | some call =>
    cases call with
    | queriedOverrides rows =>
      simp only [StoreOk, hi] at hok
      simp only [step, hi]
      refine h.store i fun key => ?_
      rcases hok key with hsame | hdue
      · exact Or.inl (loadOverrides_congr hsame)
      · exact Or.inr hdue
    | queriedNXX npa nxx tzIANA =>
      simp only [step, hi]
      exact h
    | loadedNXX npa nxx tzIANA old =>
      simp only [step, hi]
      exact h

theorem Settled.step (h : s.Settled) (a : OverrideAction ι) (hok : s.StoreOk a) :
    (s.step a).Settled := by
  cases a with
  | upsertOverride npa nxx tzIANA =>
    simp only [OverrideState.step]
    split
    · next hz =>
      split
      · exact h
      · exact h.changeRow fun key hkey => rowsAt_upsert s.table hkey hz
    · exact h
  | deleteOverride npa nxx =>
    simp only [OverrideState.step]
    split
    · exact h
    · exact h.changeRow fun key hkey => rowsAt_delete s.table hkey
  | queryNXX i npa nxx =>
    cases hi : s.calls i with
    | none => exact h.queryNXX hi npa nxx
    | some call =>
      simp only [OverrideState.step, hi]
      exact h
  | loadMap i => exact h.loadMap i
  | storeNXX i => exact h.storeNXX hok
  | queryOverrides i =>
    simp only [OverrideState.step]
    split
    · next hi =>
      refine h.setCall (fun key call hcall => ?_) (fun npa nxx z heq => ?_)
      · rw [hi] at hcall
        cases hcall
      · cases heq
    · exact h
  | storeOverrides i => exact h.storeOverrides hok

/-- Where every store is made by a call whose reads are still good, or are to be reloaded, the
map is what the table says whenever all calls are finished. -/
theorem overrides_converge (P : Platform loc) (t : OverridesTable P)
    (as : List (OverrideAction ι))
    (hok : EachStep OverrideState.step StoreOk (start ι t) as) :
    Always OverrideState.step
      (fun s => s.Finished → s.overrideCache = Go.loadOverrides P s.table.rows) (start ι t) as := by
  have hsettled := always_of_eachStep (I := Settled) (fun _ a h hstore => h.step a hstore)
    (start_settled t) hok
  exact hsettled.mono fun _ h => h.converged

end OverrideState

/-! A resolver that loads the zone of Chicago, and a table without a row at first. -/

def chicago : String := "America/Chicago"

def chicagoPlatform : Platform Unit where
  parse _ := none
  intlAccepts _ := false
  loadLocation zone := if zone = chicago then some () else none

theorem loads_chicago : Loads chicagoPlatform chicago := by
  simp [Loads, chicagoPlatform]

def noOverrides : OverridesTable chicagoPlatform where
  rows := []
  primaryKey := List.Pairwise.nil
  valid _ h := nomatch h

def oneOverride : OverridesTable chicagoPlatform :=
  noOverrides.upsert "217" "555" chicago loads_chicago

theorem rows_oneOverride : oneOverride.rows = [⟨"217", "555", chicago⟩] := rfl

theorem find_oneOverride : oneOverride.find "217" "555" = some chicago := by
  simp [OverridesTable.find, rows_oneOverride, IsRow]

theorem rowsAt_oneOverride :
    rowsAt oneOverride.rows (codeKey "217" "555") = [⟨"217", "555", chicago⟩] := by
  simp [rowsAt, rows_oneOverride]

namespace OverrideState

def overrideAdded (calls : Nat → Option (OverrideCall Unit)) :
    OverrideState chicagoPlatform Nat where
  table := oneOverride
  overrideCache := Go.loadOverrides chicagoPlatform []
  calls := calls
  changed := Function.update (fun _ => false) ("217", "555") true

theorem step_overrideAdded (calls : Nat → Option (OverrideCall Unit)) :
    step ⟨noOverrides, Go.loadOverrides chicagoPlatform [], calls, fun _ => false⟩
      (.upsertOverride "217" "555" chicago) = overrideAdded calls := by
  have hfind : noOverrides.find "217" "555" = none := rfl
  simp [step, loads_chicago, hfind, changeRow, oneOverride, overrideAdded]

def reload (i : Nat) : List (OverrideAction Nat) :=
  [.queryNXX i "217" "555", .loadMap i, .storeNXX i]

theorem overrides_converge_reloaded :
    Always OverrideState.step
      (fun s => s.Finished → s.overrideCache = Go.loadOverrides chicagoPlatform s.table.rows)
      (start Nat noOverrides) (.upsertOverride "217" "555" chicago :: reload 0) := by
  apply overrides_converge
  have hadded : step (start Nat noOverrides) (.upsertOverride "217" "555" chicago) =
      overrideAdded fun _ => none := step_overrideAdded _
  refine ⟨trivial, ?_⟩
  rw [hadded]
  refine ⟨trivial, trivial, ?_, trivial⟩
  simp [step, setCall, find_oneOverride, loads_chicago, StoreOk, overrideAdded, rowsAt_oneOverride]

/-- A full reload that has read the table before a change stores what it read after the reload
of the changed row. -/
def lateReload : List (OverrideAction Nat) :=
  .queryOverrides 0 :: .upsertOverride "217" "555" chicago :: (reload 1 ++ [.storeOverrides 0])

theorem run_lateReload : lateReload.foldl step (start Nat noOverrides) =
    ⟨oneOverride, Go.loadOverrides chicagoPlatform [],
      Function.update (Function.update (fun _ => none) 1 none) 0 none, fun _ => false⟩ := by
  have hadded : step (step (start Nat noOverrides) (.queryOverrides 0))
      (.upsertOverride "217" "555" chicago) =
        overrideAdded (Function.update (fun _ => none) 0 (some (.queriedOverrides []))) :=
    step_overrideAdded _
  simp only [lateReload, List.foldl_cons]
  rw [hadded]
  simp [reload, step, find_oneOverride, loads_chicago, setCall, overrideAdded,
    Function.update_comm (show (0 : Nat) ≠ 1 by decide)]

theorem late_reload_drops_override :
    ¬ ∀ as : List (OverrideAction Nat), Always OverrideState.step
      (fun s => s.Finished → s.overrideCache = Go.loadOverrides chicagoPlatform s.table.rows)
      (start Nat noOverrides) as := by
  intro h
  have hlast := (h lateReload).last
  rw [run_lateReload] at hlast
  have hsame : Go.loadOverrides chicagoPlatform [] =
      Go.loadOverrides chicagoPlatform oneOverride.rows :=
    hlast ⟨fun i => by simp [Function.update_apply], fun _ => rfl⟩
  have hentry : Go.loadOverrides chicagoPlatform oneOverride.rows (codeKey "217" "555") =
      reloadedEntry chicagoPlatform (some chicago) := loadOverrides_of_row rowsAt_oneOverride
  have hnone : reloadedEntry chicagoPlatform (some chicago) = none := by
    rw [← hentry, ← hsame]
    rfl
  simp [reloadedEntry, entry, chicagoPlatform] at hnone

end OverrideState

end Tz

end Vici2
