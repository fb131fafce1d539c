import Mathlib.Data.Finset.Insert
import Mathlib.Data.Finset.Erase
import Vici2.PoolPicker

/-! The index of a number pool by area code and by state: two families of sets that events of
the pool keep and a rebuild repairs. What a rebuild leaves when events were lost. -/

namespace Vici2

namespace Npa

open Pool (PoolMember)

def reservedNPAs : List String :=
  ["800", "833", "844", "855", "866", "877", "888", "900", "555", "976", "500", "521", "522", "524",
    "533", "544", "566", "577", "588"]

def isReservedNPA (npa : String) : Bool := npa ∈ reservedNPAs

/-- The three digits after `+1`; empty for any other number. -/
def extractNPA (e164 : String) : String :=
  match e164.toList with
  | '+' :: '1' :: a :: b :: c :: _ =>
    if 12 ≤ e164.utf8ByteSize ∧ a.isDigit ∧ b.isDigit ∧ c.isDigit then String.ofList [a, b, c]
    else ""
  | _ => ""

/-- The area code under which a number is indexed. -/
def usableNPA (e164 : String) : Option String :=
  let npa := extractNPA e164
  if npa = "" ∨ isReservedNPA npa then none else some npa

def sAdd (sets : String → Finset Int) (key : String) (didID : Int) : String → Finset Int :=
  Function.update sets key (insert didID (sets key))

def sRem (sets : String → Finset Int) (key : String) (didID : Int) : String → Finset Int :=
  Function.update sets key ((sets key).erase didID)

/-- A pool: its rows, its index, the quarantine keys of its numbers, the numbers whose key
cannot be read, and what the dialer's cache holds of the rows. -/
structure NpaWorld where
  rows : List PoolMember := []
  npaIndex : String → Finset Int := fun _ => ∅
  stateIndex : String → Finset Int := fun _ => ∅
  quarantineKey : Int → Bool := fun _ => false
  unreadable : Int → Bool := fun _ => false
  cached : Option (List PoolMember) := none

/-- A pool change says whether its event is handled; a rebuild and a reload may fail. -/
inductive NpaAction
  | addDid (npId didId : Int) (areaCode : String) (delivered : Bool)
  | removeDid (didId : Int) (delivered : Bool)
  | setQuarantined (didId : Int) (quarantined : Bool)
  | setQuarantineKey (didId : Int) (present : Bool)
  | setUnreadable (didId : Int) (unreadable : Bool)
  | reloadCache (ok : Bool)
  | rebuildPool (ok : Bool)

section Index

variable (stateForNPA : String → String)

def indexDid (w : NpaWorld) (didID : Int) (e164 : String) : NpaWorld :=
  match usableNPA e164 with
  | none => w
  | some npa =>
    { w with
      npaIndex := sAdd w.npaIndex npa didID
      stateIndex :=
        if stateForNPA npa ≠ "" then sAdd w.stateIndex (stateForNPA npa) didID else w.stateIndex }

def unindexDid (w : NpaWorld) (didID : Int) (e164 : String) : NpaWorld :=
  match usableNPA e164 with
  | none => w
  | some npa =>
    { w with
      npaIndex := sRem w.npaIndex npa didID
      stateIndex :=
        if stateForNPA npa ≠ "" then sRem w.stateIndex (stateForNPA npa) didID else w.stateIndex }

/-- `rebuildPool`: every row is added to its sets, and nothing is taken out. -/
def rebuildPool (w : NpaWorld) : NpaWorld :=
  w.rows.foldl (fun w m => indexDid stateForNPA w m.didId m.e164) w

variable (dids : Int → String)

/-- `dids` has the number of each DID. -/
def step (w : NpaWorld) : NpaAction → NpaWorld
  | .addDid npId didId areaCode delivered =>
    if ∃ m ∈ w.rows, m.didId = didId then w
    else
      let w := { w with rows := w.rows ++ [⟨npId, didId, dids didId, areaCode, 0, false⟩] }
      if delivered then indexDid stateForNPA w didId (dids didId) else w
  | .removeDid didId delivered =>
    let w := { w with rows := w.rows.filter fun m => m.didId ≠ didId }
    if delivered then unindexDid stateForNPA w didId (dids didId) else w
  | .setQuarantined didId quarantined =>
    { w with
      rows := w.rows.map fun m =>
        if m.didId = didId then { m with quarantined := quarantined } else m }
  | .setQuarantineKey didId present =>
    { w with quarantineKey := Function.update w.quarantineKey didId present }
  | .setUnreadable didId unreadable =>
    { w with unreadable := Function.update w.unreadable didId unreadable }
  | .reloadCache ok => { w with cached := if ok then some w.rows else none }
  | .rebuildPool ok => if ok then rebuildPool stateForNPA w else w

def IsMember (w : NpaWorld) (didID : Int) : Prop := ∃ m ∈ w.rows, m.didId = didID

/-- The sets hold exactly the members, each under its own area code. -/
def Exact (w : NpaWorld) : Prop :=
  ∀ npa didID, didID ∈ w.npaIndex npa ↔ IsMember w didID ∧ usableNPA (dids didID) = some npa

/-- Every indexed DID is a member. -/
def NoStale (w : NpaWorld) : Prop := ∀ npa, ∀ didID ∈ w.npaIndex npa, IsMember w didID

def ExactAfterRebuild (w : NpaWorld) : NpaAction → Prop
  | .rebuildPool true => Exact dids (step stateForNPA dids w (.rebuildPool true))
  | _ => True

def RebuildsFresh (w : NpaWorld) : NpaAction → Prop
  | .rebuildPool true => NoStale w
  | _ => True

/-- The event of a removal is handled. -/
def RemovalHeard : NpaAction → Prop
  | .removeDid _ delivered => delivered = true
  | _ => True

structure Inv (w : NpaWorld) : Prop where
  rows : ∀ m ∈ w.rows, m.e164 = dids m.didId
  npa : ∀ npa, ∀ didID ∈ w.npaIndex npa, usableNPA (dids didID) = some npa
  state : ∀ state, ∀ didID ∈ w.stateIndex state, state ≠ "" ∧
    ∃ npa, usableNPA (dids didID) = some npa ∧ stateForNPA npa = state ∧ didID ∈ w.npaIndex npa

theorem mem_sAdd {sets : String → Finset Int} {key k : String} {d x : Int} :
    x ∈ sAdd sets key d k ↔ (k = key ∧ x = d) ∨ x ∈ sets k := by
  unfold sAdd
  by_cases hk : k = key
  · subst hk
    rw [Function.update_self, Finset.mem_insert]
    simp
  · rw [Function.update_of_ne hk]
    simp [hk]

theorem mem_sRem {sets : String → Finset Int} {key k : String} {d x : Int} :
    x ∈ sRem sets key d k ↔ ¬ (k = key ∧ x = d) ∧ x ∈ sets k := by
  unfold sRem
  by_cases hk : k = key
  · subst hk
    rw [Function.update_self, Finset.mem_erase]
    simp
  · rw [Function.update_of_ne hk]
    simp [hk]

variable {stateForNPA dids} {w : NpaWorld}

theorem mem_indexDid {didID x : Int} {e164 npa : String} :
    x ∈ (indexDid stateForNPA w didID e164).npaIndex npa ↔
      (usableNPA e164 = some npa ∧ x = didID) ∨ x ∈ w.npaIndex npa := by
  unfold indexDid
  cases usableNPA e164 with
  | none => simp
  | some own => rw [mem_sAdd, Option.some_inj, eq_comm (a := npa)]

theorem mem_indexDid_state {didID x : Int} {e164 state : String} :
    x ∈ (indexDid stateForNPA w didID e164).stateIndex state ↔
      (∃ npa, usableNPA e164 = some npa ∧ stateForNPA npa = state ∧ state ≠ "" ∧ x = didID) ∨
        x ∈ w.stateIndex state := by
  unfold indexDid
  cases usableNPA e164 with
  | none => simp
  | some own =>
    dsimp only
    by_cases hstate : stateForNPA own ≠ ""
    · rw [if_pos hstate, mem_sAdd]
      apply or_congr_left
      constructor
      · rintro ⟨rfl, hx⟩
        exact ⟨own, rfl, rfl, hstate, hx⟩
      · rintro ⟨npa, hnpa, rfl, -, hx⟩
        obtain rfl := Option.some.inj hnpa
        exact ⟨rfl, hx⟩
    · rw [if_neg hstate]
      refine ⟨Or.inr, fun h => h.resolve_left ?_⟩
      rintro ⟨npa, hnpa, rfl, hne, -⟩
      obtain rfl := Option.some.inj hnpa
      exact hstate hne

theorem mem_unindexDid {didID x : Int} {e164 npa : String} :
    x ∈ (unindexDid stateForNPA w didID e164).npaIndex npa ↔
      ¬ (usableNPA e164 = some npa ∧ x = didID) ∧ x ∈ w.npaIndex npa := by
  unfold unindexDid
  cases usableNPA e164 with
  | none => simp
  | some own => rw [mem_sRem, Option.some_inj, eq_comm (a := npa)]

theorem mem_unindexDid_state {didID x : Int} {e164 state : String}
    (h : x ∈ (unindexDid stateForNPA w didID e164).stateIndex state) :
    x ∈ w.stateIndex state ∧
      ∀ npa, usableNPA e164 = some npa → stateForNPA npa = state → state ≠ "" → x ≠ didID := by
  unfold unindexDid at h
  cases hown : usableNPA e164 with
  | none =>
    rw [hown] at h
    exact ⟨h, fun npa hnpa => by simp at hnpa⟩
  | some own =>
    rw [hown] at h
    dsimp only at h
    by_cases hstate : stateForNPA own ≠ ""
    · rw [if_pos hstate, mem_sRem] at h
      refine ⟨h.2, ?_⟩
      rintro npa hnpa rfl - rfl
      obtain rfl := Option.some.inj hnpa
      exact h.1 ⟨rfl, rfl⟩
    · rw [if_neg hstate] at h
      refine ⟨h, ?_⟩
      rintro npa hnpa rfl hne
      obtain rfl := Option.some.inj hnpa
      exact absurd hne hstate

@[simp] theorem indexDid_rows (didID : Int) (e164 : String) :
    (indexDid stateForNPA w didID e164).rows = w.rows := by
  unfold indexDid
  cases usableNPA e164 with
  | none => rfl
  | some npa => rfl

@[simp] theorem unindexDid_rows (didID : Int) (e164 : String) :
    (unindexDid stateForNPA w didID e164).rows = w.rows := by
  unfold unindexDid
  cases usableNPA e164 with
  | none => rfl
  | some npa => rfl

theorem Inv.indexDid (hw : Inv stateForNPA dids w) (didID : Int) :
    Inv stateForNPA dids (indexDid stateForNPA w didID (dids didID)) := by
  refine ⟨?_, fun npa x hx => ?_, fun state x hx => ?_⟩
  · rw [indexDid_rows]
    exact hw.rows
  · rcases mem_indexDid.1 hx with ⟨hnpa, rfl⟩ | hx
    · exact hnpa
    · exact hw.npa npa x hx
  · rcases mem_indexDid_state.1 hx with ⟨npa, hnpa, hstate, hne, rfl⟩ | hx
    · exact ⟨hne, npa, hnpa, hstate, mem_indexDid.2 (Or.inl ⟨hnpa, rfl⟩)⟩
    · obtain ⟨hne, npa, hnpa, hstate, hmem⟩ := hw.state state x hx
      exact ⟨hne, npa, hnpa, hstate, mem_indexDid.2 (Or.inr hmem)⟩

theorem Inv.unindexDid (hw : Inv stateForNPA dids w) (didID : Int) :
    Inv stateForNPA dids (unindexDid stateForNPA w didID (dids didID)) := by
  refine ⟨?_, fun npa x hx => ?_, fun state x hx => ?_⟩
  · rw [unindexDid_rows]
    exact hw.rows
  · exact hw.npa npa x (mem_unindexDid.1 hx).2
  · obtain ⟨hold, hother⟩ := mem_unindexDid_state hx
    obtain ⟨hne, npa, hnpa, hstate, hmem⟩ := hw.state state x hold
    refine ⟨hne, npa, hnpa, hstate, mem_unindexDid.2 ⟨?_, hmem⟩⟩
    rintro ⟨hown, rfl⟩
    exact hother npa hown hstate hne rfl

/-- The index reads no row, so a change of the rows keeps the invariant with their numbers. -/
theorem Inv.withRows (hw : Inv stateForNPA dids w) {rows : List PoolMember}
    (h : ∀ m ∈ rows, m.e164 = dids m.didId) : Inv stateForNPA dids { w with rows := rows } :=
  ⟨h, hw.npa, hw.state⟩

section Rebuild

theorem foldl_indexDid_rows (l : List PoolMember) :
    (l.foldl (fun w m => indexDid stateForNPA w m.didId m.e164) w).rows = w.rows := by
  induction l generalizing w with
  | nil => rfl
  | cons m l ih => rw [List.foldl_cons, ih, indexDid_rows]

theorem mem_foldl_indexDid (l : List PoolMember) {x : Int} {npa : String} :
    x ∈ (l.foldl (fun w m => indexDid stateForNPA w m.didId m.e164) w).npaIndex npa ↔
      (∃ m ∈ l, m.didId = x ∧ usableNPA m.e164 = some npa) ∨ x ∈ w.npaIndex npa := by
  induction l generalizing w with
  | nil => simp
  | cons m l ih =>
    rw [List.foldl_cons, ih, mem_indexDid]
    constructor
    · rintro (⟨m', hm', h⟩ | ⟨hnpa, rfl⟩ | hx)
      · exact Or.inl ⟨m', List.mem_cons_of_mem m hm', h⟩
      · exact Or.inl ⟨m, List.mem_cons_self, rfl, hnpa⟩
      · exact Or.inr hx
    · rintro (⟨m', hm', hx, hnpa⟩ | hx)
      · rcases List.mem_cons.1 hm' with rfl | hm'
        · exact Or.inr (Or.inl ⟨hnpa, hx.symm⟩)
        · exact Or.inl ⟨m', hm', hx, hnpa⟩
      · exact Or.inr (Or.inr hx)

theorem Inv.foldl_indexDid (l : List PoolMember) (hl : ∀ m ∈ l, m.e164 = dids m.didId)
    (hw : Inv stateForNPA dids w) :
    Inv stateForNPA dids
      (l.foldl (fun w m => Npa.indexDid stateForNPA w m.didId m.e164) w) := by
  induction l generalizing w with
  | nil => exact hw
  | cons m l ih =>
    rw [List.foldl_cons, hl m List.mem_cons_self]
    exact ih (fun m' hm' => hl m' (List.mem_cons_of_mem m hm')) (hw.indexDid m.didId)

/-- A rebuild leaves the index exact exactly where it finds no entry of a DID that has gone. -/
theorem exact_rebuildPool_iff (hw : Inv stateForNPA dids w) :
    Exact dids (rebuildPool stateForNPA w) ↔ NoStale w := by
  have hmember : ∀ x, IsMember (rebuildPool stateForNPA w) x ↔ IsMember w x := by
    intro x
    unfold IsMember rebuildPool
    rw [foldl_indexDid_rows]
  have hindex : ∀ npa x, x ∈ (rebuildPool stateForNPA w).npaIndex npa ↔
      (∃ m ∈ w.rows, m.didId = x ∧ usableNPA m.e164 = some npa) ∨ x ∈ w.npaIndex npa :=
    fun npa x => mem_foldl_indexDid w.rows
  constructor
  · intro h npa x hx
    exact (hmember x).1 ((h npa x).1 ((hindex npa x).2 (Or.inr hx))).1
  · intro h npa x
    rw [hindex, hmember]
    constructor
    · rintro (⟨m, hm, rfl, hnpa⟩ | hx)
      · rw [hw.rows m hm] at hnpa
        exact ⟨⟨m, hm, rfl⟩, hnpa⟩
      · exact ⟨h npa x hx, hw.npa npa x hx⟩
    · rintro ⟨⟨m, hm, rfl⟩, hnpa⟩
      exact Or.inl ⟨m, hm, rfl, by rw [hw.rows m hm]; exact hnpa⟩

end Rebuild

theorem Inv.step (hw : Inv stateForNPA dids w) (a : NpaAction) :
    Inv stateForNPA dids (step stateForNPA dids w a) := by
  cases a with
  | addDid npId didId areaCode delivered =>
    unfold Npa.step
    dsimp only
    split
    · exact hw
    · have hrows : Inv stateForNPA dids
          { w with rows := w.rows ++ [⟨npId, didId, dids didId, areaCode, 0, false⟩] } := by
        apply hw.withRows
        intro m hm
        rcases List.mem_append.1 hm with hm | hm
        · exact hw.rows m hm
        · obtain rfl := List.mem_singleton.1 hm
          rfl
      cases delivered with
      | false => exact hrows
      | true => exact hrows.indexDid didId
  | removeDid didId delivered =>
    have hrows : Inv stateForNPA dids
        { w with rows := w.rows.filter fun m => m.didId ≠ didId } :=
      hw.withRows fun m hm => hw.rows m (List.mem_filter.1 hm).1
    cases delivered with
    | false => exact hrows
    | true => exact hrows.unindexDid didId
  | setQuarantined didId quarantined =>
    apply hw.withRows
    intro m hm
    obtain ⟨m', hm', rfl⟩ := List.mem_map.1 hm
    split
    · exact hw.rows m' hm'
    · exact hw.rows m' hm'
  | setQuarantineKey didId present => exact ⟨hw.rows, hw.npa, hw.state⟩
  | setUnreadable didId unreadable => exact ⟨hw.rows, hw.npa, hw.state⟩
  | reloadCache ok => exact ⟨hw.rows, hw.npa, hw.state⟩
  | rebuildPool ok =>
    cases ok with
    | false => exact hw
    | true => exact hw.foldl_indexDid w.rows hw.rows

theorem inv_empty : Inv stateForNPA dids {} := by
  refine ⟨fun m hm => ?_, fun npa x hx => ?_, fun state x hx => ?_⟩
  · exact absurd hm List.not_mem_nil
  · exact absurd hx (Finset.notMem_empty x)
  · exact absurd hx (Finset.notMem_empty x)

theorem exactAfterRebuild_iff (hw : Inv stateForNPA dids w) (a : NpaAction) :
    ExactAfterRebuild stateForNPA dids w a ↔ RebuildsFresh w a := by
  cases a with
  | rebuildPool ok =>
    cases ok with
    | false => exact Iff.rfl
    | true => exact exact_rebuildPool_iff hw
  | _ => exact Iff.rfl

section Fresh

theorem IsMember.append {x : Int} {rows : List PoolMember} (h : IsMember w x) :
    IsMember { w with rows := w.rows ++ rows } x := by
  obtain ⟨m, hm, hx⟩ := h
  exact ⟨m, List.mem_append_left rows hm, hx⟩

/-- Only a removal that is not heard leaves an entry behind. -/
theorem NoStale.step (hw : Inv stateForNPA dids w) (h : NoStale w) {a : NpaAction}
    (ha : RemovalHeard a) : NoStale (step stateForNPA dids w a) := by
  cases a with
  | addDid npId didId areaCode delivered =>
    unfold Npa.step
    dsimp only
    split
    · exact h
    · cases delivered with
      | false => exact fun npa x hx => (h npa x hx).append
      | true =>
        intro npa x hx
        rw [if_pos rfl] at hx ⊢
        unfold IsMember
        rw [indexDid_rows]
        rcases mem_indexDid.1 hx with ⟨-, rfl⟩ | hx
        · exact ⟨_, List.mem_append_right _ (List.mem_singleton_self _), rfl⟩
        · exact (h npa x hx).append
  | removeDid didId delivered =>
    obtain rfl : delivered = true := ha
    intro npa x hx
    obtain ⟨hother, hx⟩ := mem_unindexDid.1 hx
    obtain ⟨m, hm, rfl⟩ := h npa x hx
    have hne : m.didId ≠ didId := by
      rintro rfl
      exact hother ⟨hw.npa npa m.didId hx, rfl⟩
    refine ⟨m, ?_, rfl⟩
    have hkept : m ∈ w.rows.filter fun m => m.didId ≠ didId :=
      List.mem_filter.2 ⟨hm, decide_eq_true hne⟩
    show m ∈ (unindexDid stateForNPA _ didId (dids didId)).rows
    rw [unindexDid_rows]
    exact hkept
  | setQuarantined didId quarantined =>
    intro npa x hx
    obtain ⟨m, hm, rfl⟩ := h npa x hx
    refine ⟨_, List.mem_map_of_mem hm, ?_⟩
    split
    · rfl
    · rfl
  | setQuarantineKey didId present => exact h
  | setUnreadable didId unreadable => exact h
  | reloadCache ok => exact h
  | rebuildPool ok =>
    cases ok with
    | false => exact h
    | true =>
      intro npa x hx
      exact (((exact_rebuildPool_iff hw).2 h npa x).1 hx).1

theorem noStale_of_removalHeard {l : List NpaAction} (hl : ∀ a ∈ l, RemovalHeard a) :
    Always (Npa.step stateForNPA dids) (fun w => Inv stateForNPA dids w ∧ NoStale w) {} l := by
  have hheard : EachStep (Npa.step stateForNPA dids) (fun _ => RemovalHeard) {} l :=
    eachStep_of_forall_mem hl _
  have hempty : Inv stateForNPA dids {} ∧ NoStale {} :=
    ⟨inv_empty, fun npa x hx => absurd hx (Finset.notMem_empty x)⟩
  exact always_of_eachStep (fun w a hw ha => ⟨hw.1.step a, hw.2.step hw.1 ha⟩) hempty hheard

/-- Where no removal is lost, every rebuild of a run is exact, whatever became of the other
events. -/
theorem exactAfterRebuild_of_removalHeard {l : List NpaAction} (hl : ∀ a ∈ l, RemovalHeard a) :
    EachStep (Npa.step stateForNPA dids) (ExactAfterRebuild stateForNPA dids) {} l := by
  refine (noStale_of_removalHeard hl).eachStep fun w a hw => ?_
  rw [exactAfterRebuild_iff hw.1]
  cases a with
  | rebuildPool ok =>
    cases ok with
    | false => trivial
    | true => exact hw.2
  | _ => trivial

end Fresh

end Index

end Npa

end Vici2
