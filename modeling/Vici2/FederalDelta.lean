import Vici2.DncTable

/-! The federal delta sync: lines of the change file are buffered in an add
batch and a delete batch, each written when it is full and once more at the
end of the file, the adds first. -/

namespace Vici2

namespace Dnc

/-- The characters `String.prototype.trim` removes. -/
def jsSpace (c : Char) : Bool :=
  c ∈ ['\t', '\n', '\x0b', '\x0c', '\r', ' ', '\u00a0', '\u1680', '\u2028', '\u2029', '\u202f',
    '\u205f', '\u3000', '\ufeff'] || decide ('\u2000' ≤ c) && decide (c ≤ '\u200a')

def jsTrim (s : List Char) : List Char :=
  ((s.dropWhile jsSpace).reverse.dropWhile jsSpace).reverse

inductive Action
  | add
  | del
  deriving DecidableEq, Repr

structure DeltaLine where
  phone10 : String
  date : String
  action : Action
  deriving DecidableEq, Repr

def isDate : List Char → Bool
  | [a, b, c, d, '-', e, f, '-', g, h] => [a, b, c, d, e, f, g, h].all Char.isDigit
  | _ => false

def actionOf : Char → Option Action
  | 'A' => some .add
  | 'D' => some .del
  | _ => none

/-- `/^(\d{10}) (\d{4}-\d{2}-\d{2}) ([AD])$/` on the trimmed line. -/
def parseDeltaLine (line : String) : Option DeltaLine :=
  let t := jsTrim line.toList
  let phone10 := t.take 10
  let date := (t.drop 11).take 10
  if t.length = 23 ∧ phone10.all Char.isDigit = true ∧ t[10]? = some ' ' ∧ isDate date = true ∧
      t[21]? = some ' ' then
    (t[22]?.bind actionOf).map fun action => ⟨String.ofList phone10, String.ofList date, action⟩
  else none

def DeltaLine.e164 (d : DeltaLine) : String := "+1" ++ d.phone10

/-- The table, the phones added to each Bloom key, and the number of statements
the database has run. -/
structure DncStore where
  table : List DncRow
  bloom : List (String × String)
  statements : Nat
  deriving DecidableEq, Repr

def DncStore.empty : DncStore := ⟨[], [], 0⟩

/-- The collation, and `NOW()` as the `k`-th statement reads it. -/
structure MySQL where
  coll : String → String
  clock : Nat → Int

def madd (s : DncStore) (key : String) (phones : List String) : DncStore :=
  { s with bloom := s.bloom ++ phones.map fun p => (key, p) }

def batchSize : Nat := 5000

def bloomBatch : Nat := 100000

def federalRow (phone : String) : DncRow := ⟨0, phone, .federal, "__", "__GLOBAL__", none⟩

def processAdd (db : MySQL) (s : DncStore) (phones : List String) : DncStore :=
  if phones = [] then s
  else
    { s with
      table := insertIgnore db.coll s.table (phones.map federalRow)
      statements := s.statements + 1 }

def isFederal (r : DncRow) : Prop := r.tenantID = 0 ∧ r.source = .federal

instance : DecidablePred isFederal := fun _ => inferInstanceAs (Decidable (_ ∧ _))

def expireRow (now : Int) (phones : List String) (r : DncRow) : DncRow :=
  if isFederal r ∧ r.phoneE164 ∈ phones then { r with expiresAt := some now } else r

def processDel (db : MySQL) (s : DncStore) (phones : List String) : DncStore :=
  if phones = [] then s
  else
    { s with
      table := s.table.map (expireRow (db.clock s.statements) phones)
      statements := s.statements + 1 }

def processBloomAdds (s : DncStore) (phones : List String) : DncStore :=
  if phones = [] then s else madd s "bf:dnc:federal" phones

structure SyncState where
  store : DncStore
  addBatch : List String
  delBatch : List String
  bloomAdds : List String
  added : Nat
  removed : Nat

def flushAdd (db : MySQL) (st : SyncState) : SyncState :=
  { st with
    store := processAdd db st.store st.addBatch
    added := st.added + st.addBatch.length
    addBatch := [] }

def flushDel (db : MySQL) (st : SyncState) : SyncState :=
  { st with
    store := processDel db st.store st.delBatch
    removed := st.removed + st.delBatch.length
    delBatch := [] }

def flushBloom (st : SyncState) : SyncState :=
  { st with store := processBloomAdds st.store st.bloomAdds, bloomAdds := [] }

def syncParsed (db : MySQL) (st : SyncState) (parsed : DeltaLine) : SyncState :=
  match parsed.action with
  | .add =>
    let st : SyncState := { st with
      addBatch := st.addBatch ++ [parsed.e164]
      bloomAdds := st.bloomAdds ++ [parsed.e164] }
    let st : SyncState := if batchSize ≤ st.addBatch.length then flushAdd db st else st
    if bloomBatch ≤ st.bloomAdds.length then flushBloom st else st
  | .del =>
    let st : SyncState := { st with delBatch := st.delBatch ++ [parsed.e164] }
    if batchSize ≤ st.delBatch.length then flushDel db st else st

def syncLine (db : MySQL) (st : SyncState) (line : String) : SyncState :=
  if jsTrim line.toList = [] then st
  else
    match parseDeltaLine line with
    | none => st
    | some parsed => syncParsed db st parsed

/-- The part of `runFederalDeltaSync` that applies the downloaded file. -/
def runFederalDeltaSync (db : MySQL) (file : List String) (s : DncStore) : SyncState :=
  flushBloom (flushDel db (flushAdd db (file.foldl (syncLine db) ⟨s, [], [], [], 0, 0⟩)))

def deltaLines (file : List String) : List DeltaLine := file.filterMap parseDeltaLine

theorem parseDeltaLine_blank {line : String} (h : jsTrim line.toList = []) :
    parseDeltaLine line = none := by
  simp [parseDeltaLine, h]

theorem foldl_syncLine (db : MySQL) (file : List String) (st : SyncState) :
    file.foldl (syncLine db) st = (deltaLines file).foldl (syncParsed db) st := by
  induction file generalizing st with
  | nil => rfl
  | cons line file ih =>
    rw [List.foldl_cons, ih]
    unfold deltaLines syncLine
    by_cases hb : jsTrim line.toList = []
    · rw [if_pos hb, List.filterMap_cons_none (parseDeltaLine_blank hb)]
    · rw [if_neg hb]
      cases hp : parseDeltaLine line with
      | none => rw [List.filterMap_cons_none hp]
      | some d => rw [List.filterMap_cons_some hp, List.foldl_cons]

theorem flushBloom_table (st : SyncState) : (flushBloom st).store.table = st.store.table := by
  unfold flushBloom processBloomAdds madd
  dsimp only
  split <;> rfl

/-- Whether the table holds a row under the key that an add of `phone` inserts. -/
def Known (db : MySQL) (phone : String) (s : DncStore) : Prop :=
  (federalRow phone).key db.coll ∈ s.table.map (DncRow.key db.coll)

def Listed (now : Int) (phone : String) (s : DncStore) : Prop :=
  ∃ r ∈ s.table, isFederal r ∧ r.phoneE164 = phone ∧ r.live now = true

instance (db : MySQL) (phone : String) (s : DncStore) : Decidable (Known db phone s) :=
  inferInstanceAs (Decidable (_ ∈ _))

instance (now : Int) (phone : String) (s : DncStore) : Decidable (Listed now phone s) :=
  inferInstanceAs (Decidable (∃ r ∈ s.table, _))

theorem key_federalRow_inj {coll : String → String} {p q : String}
    (h : (federalRow p).key coll = (federalRow q).key coll) : p = q := by
  simp only [DncRow.key, federalRow, Prod.mk.injEq] at h
  exact h.2.1

theorem known_processAdd {db : MySQL} {s : DncStore} {phones : List String} {p : String} :
    Known db p (processAdd db s phones) ↔ Known db p s ∨ p ∈ phones := by
  unfold processAdd
  by_cases hnil : phones = []
  · simp [hnil]
  rw [if_neg hnil]
  constructor
  · intro h
    obtain ⟨r, hr, hk⟩ := List.mem_map.1 h
    rcases mem_of_mem_insertIgnore hr with hr | hr
    · exact Or.inl (List.mem_map.2 ⟨r, hr, hk⟩)
    · obtain ⟨q, hq, rfl⟩ := List.mem_map.1 hr
      rw [key_federalRow_inj hk] at hq
      exact Or.inr hq
  · intro h
    rcases h with h | h
    · obtain ⟨r, hr, hk⟩ := List.mem_map.1 h
      exact List.mem_map.2 ⟨r, mem_insertIgnore_of_mem hr, hk⟩
    · exact key_mem_insertIgnore (List.mem_map_of_mem h)

theorem key_expireRow (coll : String → String) (now : Int) (phones : List String) (r : DncRow) :
    (expireRow now phones r).key coll = r.key coll := by
  unfold expireRow
  split <;> rfl

theorem known_processDel {db : MySQL} {s : DncStore} {phones : List String} {p : String} :
    Known db p (processDel db s phones) ↔ Known db p s := by
  unfold processDel Known
  by_cases hnil : phones = []
  · simp [hnil]
  rw [if_neg hnil]
  simp only [List.map_map, Function.comp_def, key_expireRow]

theorem listed_processAdd {db : MySQL} {now : Int} {s : DncStore} {phones : List String}
    {p : String} :
    Listed now p (processAdd db s phones) ↔ Listed now p s ∨ (¬ Known db p s ∧ p ∈ phones) := by
  unfold processAdd
  by_cases hnil : phones = []
  · simp [hnil]
  rw [if_neg hnil]
  have hinj : ∀ a b, (federalRow a).key db.coll = (federalRow b).key db.coll → a = b :=
    fun _ _ => key_federalRow_inj
  constructor
  · intro h
    obtain ⟨r, hr, hf, hp, hl⟩ := h
    rcases (mem_insertIgnore_map hinj).1 hr with hr | ⟨q, hq, rfl, hk⟩
    · exact Or.inl ⟨r, hr, hf, hp, hl⟩
    · have hpq : q = p := hp
      subst hpq
      exact Or.inr ⟨hk, hq⟩
  · intro h
    rcases h with ⟨r, hr, hf, hp, hl⟩ | ⟨hk, hp⟩
    · exact ⟨r, mem_insertIgnore_of_mem hr, hf, hp, hl⟩
    · exact ⟨federalRow p, (mem_insertIgnore_map hinj).2 (Or.inr ⟨p, hp, rfl, hk⟩), ⟨rfl, rfl⟩, rfl,
        rfl⟩

theorem listed_processDel {db : MySQL} {now : Int} (hclock : ∀ k, db.clock k ≤ now) {s : DncStore}
    {phones : List String} {p : String} :
    Listed now p (processDel db s phones) ↔ Listed now p s ∧ p ∉ phones := by
  unfold processDel
  by_cases hnil : phones = []
  · simp [hnil]
  rw [if_neg hnil]
  constructor
  · rintro ⟨r, hr, hf, hp, hl⟩
    obtain ⟨x, hx, rfl⟩ := List.mem_map.1 hr
    by_cases hexp : isFederal x ∧ x.phoneE164 ∈ phones
    · have hle := hclock s.statements
      rw [expireRow, if_pos hexp] at hl
      simp only [DncRow.live, decide_eq_true_eq] at hl
      omega
    · rw [expireRow, if_neg hexp] at hf hp hl
      refine ⟨⟨x, hx, hf, hp, hl⟩, ?_⟩
      intro hm
      exact hexp ⟨hf, hp.symm ▸ hm⟩
  · rintro ⟨⟨r, hr, hf, hp, hl⟩, hn⟩
    have hsame : expireRow (db.clock s.statements) phones r = r := by
      rw [expireRow, if_neg]
      rintro ⟨-, hm⟩
      exact hn (hp ▸ hm)
    exact ⟨r, List.mem_map.2 ⟨r, hr, hsame⟩, hf, hp, hl⟩

end Dnc

end Vici2
