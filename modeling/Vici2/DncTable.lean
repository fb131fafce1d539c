import Vici2.GoTime

/-! The `dnc` table and the confirmation query that both the dialer and the API
run on it. Texts are compared by their collation keys. -/

namespace Vici2

namespace Dnc

inductive Source
  | federal
  | state
  | internal
  | litigator
  | other (name : String)
  deriving DecidableEq, Repr

def Source.text : Source → String
  | .federal => "federal"
  | .state => "state"
  | .internal => "internal"
  | .litigator => "litigator"
  | .other name => name

def sourcePriority : Source → Nat
  | .internal => 4
  | .litigator => 3
  | .state => 2
  | .federal => 1
  | .other _ => 0

structure DncRow where
  tenantID : Int
  phoneE164 : String
  source : Source
  state : String
  campaignID : String
  expiresAt : Option Int
  deriving DecidableEq, Repr

def DncRow.live (now : Int) (r : DncRow) : Bool :=
  match r.expiresAt with
  | none => true
  | some t => decide (now < t)

/-- The primary key, as the collation `coll` compares it. -/
def DncRow.key (coll : String → String) (r : DncRow) :
    Int × String × Source × String × String :=
  (r.tenantID, r.phoneE164, r.source, coll r.state, coll r.campaignID)

def insertIgnoreOne (coll : String → String) (table : List DncRow) (r : DncRow) : List DncRow :=
  if r.key coll ∈ table.map (DncRow.key coll) then table else table ++ [r]

def insertIgnore (coll : String → String) (table rows : List DncRow) : List DncRow :=
  rows.foldl (insertIgnoreOne coll) table

structure ConfirmArgs where
  phone : String
  tenantID : Int
  campaignID : String
  leadState : String
  deriving DecidableEq, Repr

def ConfirmArgs.covers (coll : String → String) (a : ConfirmArgs) (r : DncRow) : Bool :=
  decide (r.phoneE164 = a.phone) &&
    (decide (r.tenantID = a.tenantID) || decide (r.tenantID = 0)) &&
    match r.source with
    | .federal => true
    | .litigator => true
    | .internal => decide (r.tenantID = a.tenantID) &&
        (decide (coll r.campaignID = coll "__GLOBAL__") ||
          decide (coll r.campaignID = coll a.campaignID))
    | .state => decide (r.tenantID = 0) &&
        (decide (coll r.state = coll a.leadState) || decide (coll r.state = coll "__"))
    | .other _ => false

def confirmQuery (coll : String → String) (table : List DncRow) (now : Int) (a : ConfirmArgs)
    (sources : List Source) : List DncRow :=
  (table.filter fun r => a.covers coll r && decide (r.source ∈ sources) && r.live now).take 4

def confirmedSources (coll : String → String) (table : List DncRow) (now : Int) (a : ConfirmArgs)
    (sources : List Source) : List Source :=
  ((confirmQuery coll table now a sources).map DncRow.source).eraseDups

theorem mem_insertIgnoreOne {coll : String → String} {table : List DncRow} {r x : DncRow} :
    x ∈ insertIgnoreOne coll table r ↔
      x ∈ table ∨ (x = r ∧ r.key coll ∉ table.map (DncRow.key coll)) := by
  unfold insertIgnoreOne
  by_cases h : r.key coll ∈ table.map (DncRow.key coll)
  · rw [if_pos h]
    exact ⟨Or.inl, fun hx => hx.elim id fun hx => absurd h hx.2⟩
  · rw [if_neg h, List.mem_append, List.mem_singleton]
    exact or_congr_right ⟨fun hx => ⟨hx, h⟩, fun hx => hx.1⟩

theorem mem_insertIgnore_cases {coll : String → String} {table rows : List DncRow} {x : DncRow}
    (h : x ∈ insertIgnore coll table rows) :
    x ∈ table ∨ (x ∈ rows ∧ x.key coll ∉ table.map (DncRow.key coll)) := by
  induction rows generalizing table with
  | nil => exact Or.inl h
  | cons r rows ih =>
    rcases ih h with hx | ⟨hx, hk⟩
    · rcases mem_insertIgnoreOne.1 hx with hx | ⟨rfl, hk⟩
      · exact Or.inl hx
      · exact Or.inr ⟨List.mem_cons_self, hk⟩
    · refine Or.inr ⟨List.mem_cons_of_mem _ hx, ?_⟩
      intro hm
      obtain ⟨y, hy, hyk⟩ := List.mem_map.1 hm
      exact hk (List.mem_map.2 ⟨y, mem_insertIgnoreOne.2 (Or.inl hy), hyk⟩)

theorem mem_of_mem_insertIgnore {coll : String → String} {table rows : List DncRow} {x : DncRow}
    (h : x ∈ insertIgnore coll table rows) : x ∈ table ∨ x ∈ rows :=
  (mem_insertIgnore_cases h).imp_right And.left

theorem mem_insertIgnore_of_mem {coll : String → String} {table rows : List DncRow} {x : DncRow}
    (h : x ∈ table) : x ∈ insertIgnore coll table rows := by
  induction rows generalizing table with
  | nil => exact h
  | cons r rows ih => exact ih (mem_insertIgnoreOne.2 (Or.inl h))

theorem key_mem_insertIgnore {coll : String → String} {table rows : List DncRow} {r : DncRow}
    (h : r ∈ rows) : r.key coll ∈ (insertIgnore coll table rows).map (DncRow.key coll) := by
  induction rows generalizing table with
  | nil => simp at h
  | cons x rows ih =>
    rcases List.mem_cons.1 h with hx | hx
    · subst hx
      by_cases hk : r.key coll ∈ table.map (DncRow.key coll)
      · obtain ⟨y, hy, hyr⟩ := List.mem_map.1 hk
        have hy' : y ∈ insertIgnore coll table (r :: rows) := mem_insertIgnore_of_mem hy
        exact List.mem_map.2 ⟨y, hy', hyr⟩
      · have hr : r ∈ insertIgnoreOne coll table r := mem_insertIgnoreOne.2 (Or.inr ⟨rfl, hk⟩)
        have hr' : r ∈ insertIgnore coll (insertIgnoreOne coll table r) rows :=
          mem_insertIgnore_of_mem hr
        exact List.mem_map_of_mem hr'
    · exact ih hx

/-- Where the inserted rows differ in their keys, those are added whose key is new. -/
theorem mem_insertIgnore_map {α : Type*} {coll : String → String} {f : α → DncRow}
    (hinj : ∀ a b, (f a).key coll = (f b).key coll → a = b) {table : List DncRow} {l : List α}
    {x : DncRow} :
    x ∈ insertIgnore coll table (l.map f) ↔
      x ∈ table ∨ ∃ a ∈ l, x = f a ∧ (f a).key coll ∉ table.map (DncRow.key coll) := by
  constructor
  · intro h
    rcases mem_insertIgnore_cases h with h | ⟨h, hk⟩
    · exact Or.inl h
    · obtain ⟨a, ha, rfl⟩ := List.mem_map.1 h
      exact Or.inr ⟨a, ha, rfl, hk⟩
  · rintro (h | ⟨a, ha, rfl, hk⟩)
    · exact mem_insertIgnore_of_mem h
    · have hkey : (f a).key coll ∈ (insertIgnore coll table (l.map f)).map (DncRow.key coll) :=
        key_mem_insertIgnore (List.mem_map_of_mem ha)
      obtain ⟨y, hy, hyk⟩ := List.mem_map.1 hkey
      rcases mem_of_mem_insertIgnore hy with hyt | hyr
      · exact absurd (List.mem_map.2 ⟨y, hyt, hyk⟩) hk
      · obtain ⟨b, -, rfl⟩ := List.mem_map.1 hyr
        rwa [← hinj b a hyk]

theorem mem_confirmedSources {coll : String → String} {table : List DncRow} {now : Int}
    {a : ConfirmArgs} {sources : List Source} {s : Source}
    (h : s ∈ confirmedSources coll table now a sources) :
    ∃ r ∈ table, r.source = s ∧ a.covers coll r = true ∧ s ∈ sources ∧ r.live now = true := by
  unfold confirmedSources at h
  rw [List.mem_eraseDups] at h
  obtain ⟨r, hr, hs⟩ := List.mem_map.1 h
  obtain ⟨hrt, hr⟩ := List.mem_filter.1 (List.mem_of_mem_take hr)
  simp only [Bool.and_eq_true, decide_eq_true_eq] at hr
  exact ⟨r, hrt, hs, hr.1.1, hs ▸ hr.1.2, hr.2⟩

theorem confirmedSources_ne_nil {coll : String → String} {table : List DncRow} {now : Int}
    {a : ConfirmArgs} {sources : List Source} {r : DncRow} (hr : r ∈ table)
    (hc : a.covers coll r = true) (hs : r.source ∈ sources) (hl : r.live now = true) :
    confirmedSources coll table now a sources ≠ [] := by
  have hf : r ∈ table.filter fun r => a.covers coll r && decide (r.source ∈ sources) && r.live now :=
    List.mem_filter.2 ⟨hr, by simp [hc, hs, hl]⟩
  obtain ⟨x, xs, hx⟩ := List.exists_cons_of_ne_nil (List.ne_nil_of_mem hf)
  have hq : x.source ∈ confirmedSources coll table now a sources := by
    unfold confirmedSources confirmQuery
    rw [List.mem_eraseDups, hx]
    simp
  exact List.ne_nil_of_mem hq

end Dnc

end Vici2
