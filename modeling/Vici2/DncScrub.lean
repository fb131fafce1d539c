import Vici2.DncTable
import Vici2.LeadImport

/-! The scrub of an import batch against the `dnc` table: which phones the Bloom
filters pass on, and which of those the confirming query still sees. The table is
listed in the order in which the query reads it. -/

namespace Vici2

namespace LeadImport

open Dnc

/-- The filters that are asked for a phone; none of them is for litigators. -/
def scrubSources : List Source := [.federal, .state, .internal]

def scrubMatch (now tenantId : Int) (phones : List String) (r : DncRow) : Bool :=
  decide (r.phoneE164 ∈ phones) && (decide (r.tenantID = tenantId) || decide (r.tenantID = 0)) &&
    r.live now

/-- The confirming query. -/
def scrubQuery (table : List DncRow) (now tenantId : Int) (phones : List String) :
    List (String × String) :=
  ((table.filter (scrubMatch now tenantId phones)).take (phones.length * 4)).map fun r =>
    (r.phoneE164, r.source.text)

def scrubReply (bloom : Option (List (Bool × Nat))) (table : List DncRow) (now tenantId : Int) :
    DncReply :=
  ⟨bloom, scrubQuery table now tenantId⟩

section Scrub

variable (bloom : Option (List (Bool × Nat))) (table : List DncRow) (now tenantId : Int)
  (phones : List String)

/-- A live row of the tenant or of tenant 0. -/
def Listed (p : String) (r : DncRow) : Prop :=
  r ∈ table ∧ r.phoneE164 = p ∧ (r.tenantID = tenantId ∨ r.tenantID = 0) ∧ r.live now = true

/-- The replies for the `i`-th phone pass it on: there are none, or one is an error or
a hit. -/
def passedOn (i : Nat) : Bool :=
  match bloom with
  | none => true
  | some results => (List.range 3).any fun ki =>
    match results[i * 3 + ki]? with
    | some (failed, n) => failed || n == 1
    | none => false

/-- Each filter holds every live row of its source: the reply for such a phone is an
error or a hit. -/
def FiltersHold : Prop :=
  ∀ results, bloom = some results → ∀ (i k : Nat) (r : DncRow), phones[i]? = some r.phoneE164 →
    scrubSources[k]? = some r.source → Listed table now tenantId r.phoneE164 r →
      ∃ reply, results[i * 3 + k]? = some reply ∧ (reply.1 = true ∨ reply.2 = 1)

def ReportsListed : Prop :=
  ∀ p ∈ phones, (∃ r, Listed table now tenantId p r) →
    ∃ res, checkDnc (scrubReply bloom table now tenantId) phones p = some res ∧ res.isDnc = true

/-- The phones of the batch whose replies pass them on. -/
def passedPhones : List String :=
  (phones.zipIdx.filter fun x => passedOn bloom x.2).map Prod.fst

/-- One of the live rows of the phone has a source whose filter is asked, or the replies
pass the phone on all the same; and fewer than four rows for each phone passed on are
read before its first. -/
structure Seen (p : String) : Prop where
  passed : (∃ r, Listed table now tenantId p r ∧ r.source ∈ scrubSources) ∨
    ∃ i, phones[i]? = some p ∧ passedOn bloom i = true
  within : ((table.takeWhile fun r => !scrubMatch now tenantId [p] r).filter
      (scrubMatch now tenantId (passedPhones bloom phones))).length <
    (passedPhones bloom phones).length * 4

end Scrub

/-- A row is among the first rows of a kind exactly when few of the kind are before it. -/
theorem exists_mem_take_filter {α : Type*} {kind sought : α → Bool}
    (h : ∀ x, sought x = true → kind x = true) (l : List α) (n : Nat) :
    (∃ x ∈ (l.filter kind).take n, sought x = true) ↔
      (∃ x ∈ l, sought x = true) ∧
        ((l.takeWhile fun x => !sought x).filter kind).length < n := by
  induction l generalizing n with
  | nil => simp
  | cons x l ih =>
    by_cases hs : sought x = true
    · have hk := h x hs
      cases n with
      | zero => simp
      | succ n => simp [hs, hk]
    · by_cases hk : kind x = true
      · cases n with
        | zero => simp
        | succ n =>
          have hn := ih n
          simp only [List.filter_cons_of_pos hk, List.take_succ_cons, List.mem_cons, exists_eq_or_imp,
            hs, Bool.false_eq_true, false_or, Bool.not_false, List.takeWhile_cons_of_pos,
            List.length_cons, Nat.add_lt_add_iff_right]
          simpa [hs, hk] using hn
      · have hn := ih n
        simpa [hs, hk] using hn

section Batch

variable {bloom : Option (List (Bool × Nat))} {table : List DncRow} {now tenantId : Int}
  {phones : List String} {p : String}

theorem bloomPositives_scrubReply (bloom : Option (List (Bool × Nat))) (table : List DncRow)
    (now tenantId : Int) (phones : List String) :
    bloomPositives (scrubReply bloom table now tenantId) phones = passedPhones bloom phones := by
  cases bloom with
  | none => simp [bloomPositives, scrubReply, passedPhones, passedOn]
  | some results => rfl

theorem mem_passedPhones :
    p ∈ passedPhones bloom phones ↔ ∃ i, phones[i]? = some p ∧ passedOn bloom i = true := by
  unfold passedPhones
  constructor
  · intro h
    obtain ⟨⟨q, i⟩, hmem, rfl⟩ := List.mem_map.1 h
    obtain ⟨hmem, hpassed⟩ := List.mem_filter.1 hmem
    exact ⟨i, List.mem_zipIdx_iff_getElem?.1 hmem, hpassed⟩
  · rintro ⟨i, hi, hpassed⟩
    have hmem : (p, i) ∈ phones.zipIdx := List.mem_zipIdx_iff_getElem?.2 hi
    exact List.mem_map.2 ⟨(p, i), List.mem_filter.2 ⟨hmem, hpassed⟩, rfl⟩

theorem scrubMatch_iff {phones : List String} {r : DncRow} :
    scrubMatch now tenantId phones r = true ↔
      r.phoneE164 ∈ phones ∧ (r.tenantID = tenantId ∨ r.tenantID = 0) ∧ r.live now = true := by
  simp [scrubMatch, and_assoc]

theorem listed_iff {r : DncRow} :
    Listed table now tenantId p r ↔ r ∈ table ∧ scrubMatch now tenantId [p] r = true := by
  rw [scrubMatch_iff, List.mem_singleton]
  exact Iff.rfl

/-- A filter that is asked passes on the phones of its own rows. -/
theorem FiltersHold.passed (h : FiltersHold bloom table now tenantId phones) {r : DncRow}
    (hp : p ∈ phones) (hr : Listed table now tenantId p r) (hs : r.source ∈ scrubSources) :
    ∃ i, phones[i]? = some p ∧ passedOn bloom i = true := by
  obtain ⟨i, hi⟩ := List.mem_iff_getElem?.1 hp
  refine ⟨i, hi, ?_⟩
  cases hb : bloom with
  | none => rfl
  | some results =>
    obtain ⟨k, hk⟩ := List.mem_iff_getElem?.1 hs
    obtain ⟨hmem, rfl, hrest⟩ := hr
    obtain ⟨⟨failed, n⟩, hreply, hanswer⟩ := h results hb i k r hi hk ⟨hmem, rfl, hrest⟩
    have hk3 : k < 3 := (List.getElem?_eq_some_iff.1 hk).1
    unfold passedOn
    refine List.any_eq_true.2 ⟨k, List.mem_range.2 hk3, ?_⟩
    rw [hreply]
    simpa using hanswer

/-- What is reported of a phone of the batch: one of its rows is among those that the
query returns. -/
theorem reported_iff (hp : p ∈ phones) :
    (∃ res, checkDnc (scrubReply bloom table now tenantId) phones p = some res ∧
        res.isDnc = true) ↔
      ∃ r ∈ (table.filter (scrubMatch now tenantId (passedPhones bloom phones))).take
        ((passedPhones bloom phones).length * 4), r.phoneE164 = p := by
  unfold checkDnc
  rw [bloomPositives_scrubReply, if_pos hp]
  by_cases hnil : passedPhones bloom phones = []
  · simp [hnil]
  · simp only [scrubReply, scrubQuery, hnil, if_false, Option.some.injEq, exists_eq_left',
      Bool.not_eq_true', List.isEmpty_eq_false_iff, ne_eq, List.filter_eq_nil_iff, List.mem_map,
      beq_iff_eq, not_forall, not_not, exists_prop]
    constructor
    · rintro ⟨-, ⟨r, hr, rfl⟩, hphone⟩
      exact ⟨r, hr, hphone⟩
    · rintro ⟨r, hr, hphone⟩
      exact ⟨_, ⟨r, hr, rfl⟩, hphone⟩

theorem reported_iff_seen (hfilters : FiltersHold bloom table now tenantId phones)
    (hp : p ∈ phones) (hlisted : ∃ r, Listed table now tenantId p r) :
    (∃ res, checkDnc (scrubReply bloom table now tenantId) phones p = some res ∧
        res.isDnc = true) ↔
      Seen bloom table now tenantId phones p := by
  have hkind : p ∈ passedPhones bloom phones → ∀ r : DncRow, scrubMatch now tenantId [p] r = true →
      scrubMatch now tenantId (passedPhones bloom phones) r = true := by
    intro hpassed r hr
    obtain ⟨hphone, hrest⟩ := scrubMatch_iff.1 hr
    rw [← List.mem_singleton.1 hphone] at hpassed
    exact scrubMatch_iff.2 ⟨hpassed, hrest⟩
  have hrow : ∃ r ∈ table, scrubMatch now tenantId [p] r = true := by
    obtain ⟨r, hr⟩ := hlisted
    exact ⟨r, listed_iff.1 hr⟩
  rw [reported_iff hp]
  constructor
  · rintro ⟨r, hr, hphone⟩
    have hmatch := (List.mem_filter.1 (List.mem_of_mem_take hr)).2
    obtain ⟨hmem, hrest⟩ := scrubMatch_iff.1 hmatch
    have hpassed : p ∈ passedPhones bloom phones := hphone ▸ hmem
    refine ⟨Or.inr (mem_passedPhones.1 hpassed), ?_⟩
    have hsought : scrubMatch now tenantId [p] r = true :=
      scrubMatch_iff.2 ⟨List.mem_singleton.2 hphone, hrest⟩
    exact ((exists_mem_take_filter (hkind hpassed) table _).1 ⟨r, hr, hsought⟩).2
  · intro hseen
    have hpassed : p ∈ passedPhones bloom phones := by
      rw [mem_passedPhones]
      rcases hseen.passed with ⟨r, hr, hs⟩ | hpassed
      · exact hfilters.passed hp hr hs
      · exact hpassed
    obtain ⟨r, hr, hsought⟩ :=
      (exists_mem_take_filter (hkind hpassed) table _).2 ⟨hrow, hseen.within⟩
    exact ⟨r, hr, List.mem_singleton.1 (scrubMatch_iff.1 hsought).1⟩

/-- Whatever the pipeline answers and however many rows a phone has. -/
theorem reportsListed_iff (hfilters : FiltersHold bloom table now tenantId phones) :
    ReportsListed bloom table now tenantId phones ↔
      ∀ p ∈ phones, (∃ r, Listed table now tenantId p r) →
        Seen bloom table now tenantId phones p := by
  constructor
  · intro h p hp hlisted
    exact (reported_iff_seen hfilters hp hlisted).1 (h p hp hlisted)
  · intro h p hp hlisted
    exact (reported_iff_seen hfilters hp hlisted).2 (h p hp hlisted)

end Batch

def phoneA : String := "+12125550100"

def phoneB : String := "+12125550101"

def federalRow (phone : String) : DncRow := ⟨0, phone, .federal, "__", "__GLOBAL__", none⟩

def litigatorRow : DncRow := ⟨0, phoneA, .litigator, "__", "__GLOBAL__", none⟩

/-- Eight campaigns of tenant 1 have the first phone on their own lists. -/
def crowdedTable : List DncRow :=
  ["C1", "C2", "C3", "C4", "C5", "C6", "C7", "C8"].map
    (fun campaign => ⟨1, phoneA, .internal, "__", campaign, none⟩) ++ [federalRow phoneB]

theorem filtersHold_none (table : List DncRow) (now tenantId : Int) (phones : List String) :
    FiltersHold none table now tenantId phones := by
  intro results h
  cases h

theorem federal_phone_reported :
    FiltersHold none [federalRow phoneB] 0 1 [phoneA, phoneB] ∧
      (ReportsListed none [federalRow phoneB] 0 1 [phoneA, phoneB] ↔
        ∀ p ∈ [phoneA, phoneB], (∃ r, Listed [federalRow phoneB] 0 1 p r) →
          Seen none [federalRow phoneB] 0 1 [phoneA, phoneB] p) :=
  ⟨filtersHold_none _ 0 1 _, reportsListed_iff (filtersHold_none _ 0 1 _)⟩

/-- A litigator that the three filters do not hold; and, with the filters down, a phone
behind the eight rows of another. -/
theorem listed_phones_missed :
    (FiltersHold (some [(false, 0), (false, 0), (false, 0)]) [litigatorRow] 0 1 [phoneA] ∧
        ¬ ReportsListed (some [(false, 0), (false, 0), (false, 0)]) [litigatorRow] 0 1 [phoneA]) ∧
      FiltersHold none crowdedTable 0 1 [phoneA, phoneB] ∧
        ¬ ReportsListed none crowdedTable 0 1 [phoneA, phoneB] := by
  refine ⟨⟨?_, ?_⟩, filtersHold_none _ 0 1 _, ?_⟩
  · rintro results - i k r - hk ⟨hr, -, -⟩
    obtain rfl := List.mem_singleton.1 hr
    have hasked := List.mem_of_getElem? hk
    exact absurd hasked (by decide)
  · intro h
    obtain ⟨res, hres, hdnc⟩ := h phoneA (by decide) ⟨litigatorRow, by decide, rfl, by decide, rfl⟩
    have hclean : checkDnc (scrubReply (some [(false, 0), (false, 0), (false, 0)]) [litigatorRow] 0 1)
        [phoneA] phoneA = some ⟨false, []⟩ := by decide +kernel
    rw [hclean] at hres
    obtain rfl := Option.some.inj hres
    cases hdnc
  · intro h
    obtain ⟨res, hres, hdnc⟩ := h phoneB (by decide)
      ⟨federalRow phoneB, List.mem_append_right _ (List.mem_singleton_self _), rfl, by decide, rfl⟩
    have hclean : checkDnc (scrubReply none crowdedTable 0 1) [phoneA, phoneB] phoneB =
        some ⟨false, []⟩ := by decide +kernel
    rw [hclean] at hres
    obtain rfl := Option.some.inj hres
    cases hdnc

end LeadImport

end Vici2
