import Mathlib.Data.List.Sort
import Mathlib.Data.List.Nodup

/-! The choice of a gateway. A sort orders the gateways, and the first one that passes the
filters is taken. -/

namespace Vici2.Routing

/-- `sort.Slice`: a permutation without inversions, wherever `less` orders strictly and weakly.
It need not keep the order of equal elements. -/
structure SortSlice (α : Type*) where
  sort : (α → α → Bool) → List α → List α
  perm : ∀ less l, (sort less l).Perm l
  ordered : ∀ less l, (∀ a b, less a b = true → less b a = false) →
    (∀ a b c, less a b = false → less b c = false → less a c = false) →
    (sort less l).Pairwise fun a b => less b a = false

def SortSlice.merge (α : Type*) : SortSlice α where
  sort less l := l.mergeSort fun a b => !less b a
  perm less l := List.mergeSort_perm l _
  ordered less l hasymm htrans := by
    have hsorted : (l.mergeSort fun a b => !less b a).Pairwise fun a b => (!less b a) = true :=
      List.pairwise_mergeSort (fun a b c hab hbc => by
        have hba : less b a = false := by simpa using hab
        have hcb : less c b = false := by simpa using hbc
        simpa using htrans c b a hcb hba)
      (fun a b => by
        cases hba : less b a with
        | false => simp
        | true => simp [hasymm b a hba])
      l
    exact hsorted.imp fun h => by simpa using h

structure Gateway where
  id : Int
  tenantID : Int
  carrierID : Int
  name : String
  priority : Int
  weight : Int
  maxConcurrent : Option Int
  active : Bool
  version : Int
  deriving DecidableEq, Repr

structure GatewayHealth where
  gatewayID : Int
  healthy : Bool
  deriving DecidableEq, Repr

structure SelectRequest where
  tenantID : Int
  carrierID : Int
  gateways : List Gateway
  activeCounts : Int → Option Int
  healthCache : Int → Option GatewayHealth

structure SelectResult where
  gateway : Gateway
  activeCount : Int
  deriving DecidableEq, Repr

/-- What a `GET` of a counter gives: no key, a number, or an error, of the connection or of a
value that is no number. -/
inductive CounterReply
  | missing
  | value (n : Int)
  | failed (error : String)
  deriving DecidableEq, Repr

structure Selector where
  rdb : Option (String → CounterReply)
  gwActiveKey : Int → Int → String

def defaultGWActiveKey (tenantID gatewayID : Int) : String :=
  "t:" ++ toString tenantID ++ ":gw:" ++ toString gatewayID ++ ":active"

def errNoGateway : String := "routing: no eligible gateway available"

def less (a b : Gateway) : Bool :=
  if a.priority ≠ b.priority then a.priority < b.priority
  else if a.weight ≠ b.weight then a.weight > b.weight
  else a.id < b.id

def Selector.getActiveCount (s : Selector) (tenantID : Int) (gw : Gateway)
    (cache : Int → Option Int) : Except String Int :=
  match cache gw.id with
  | some v => .ok v
  | none =>
    match s.rdb with
    | none => .ok 0
    | some get =>
      match get (s.gwActiveKey tenantID gw.id) with
      | .missing => .ok 0
      | .value n => .ok n
      | .failed error => .error error

def Selector.firstEligible (s : Selector) (req : SelectRequest) :
    List Gateway → Except String SelectResult
  | [] => .error errNoGateway
  | gw :: rest =>
    if gw.active = false then s.firstEligible req rest
    else if (req.healthCache gw.id).any fun h => !h.healthy then s.firstEligible req rest
    else
      match s.getActiveCount req.tenantID gw req.activeCounts with
      | .error _ => s.firstEligible req rest
      | .ok active =>
        if gw.maxConcurrent.any fun cap => active ≥ cap then s.firstEligible req rest
        else .ok ⟨gw, active⟩

def Selector.selectGateway (s : Selector) (sorter : SortSlice Gateway) (req : SelectRequest) :
    Except String SelectResult :=
  s.firstEligible req (sorter.sort less req.gateways)

/-- Active, not marked unhealthy, with a count that can be read and is below the cap, if any. -/
structure Eligible (s : Selector) (req : SelectRequest) (gw : Gateway) (count : Int) : Prop where
  active : gw.active = true
  healthy : ∀ h ∈ req.healthCache gw.id, h.healthy = true
  counted : s.getActiveCount req.tenantID gw req.activeCounts = .ok count
  below : ∀ cap ∈ gw.maxConcurrent, count < cap

/-- By priority, ascending, then by weight, descending, then by id, ascending. -/
def Precedes (a b : Gateway) : Prop :=
  a.priority < b.priority ∨
    a.priority = b.priority ∧ (b.weight < a.weight ∨ a.weight = b.weight ∧ a.id < b.id)

theorem less_iff (a b : Gateway) : less a b = true ↔ Precedes a b := by
  unfold less Precedes
  split_ifs with hpriority hweight
  · simp [hpriority]
  · simp only [not_not] at hpriority
    simp [hpriority, hweight]
  · simp only [not_not] at hpriority hweight
    simp [hpriority, hweight]

theorem less_asymm {a b : Gateway} (h : less a b = true) : less b a = false := by
  have hab := (less_iff a b).1 h
  rw [Bool.eq_false_iff, ne_eq, less_iff]
  unfold Precedes at hab ⊢
  omega

theorem not_less_trans {a b c : Gateway} (hab : less a b = false) (hbc : less b c = false) :
    less a c = false := by
  rw [Bool.eq_false_iff, ne_eq, less_iff] at hab hbc ⊢
  unfold Precedes at hab hbc ⊢
  omega

/-- Gateways neither of which precedes the other have one id. -/
theorem id_eq_of_not_less {a b : Gateway} (hab : less a b = false) (hba : less b a = false) :
    a.id = b.id := by
  rw [Bool.eq_false_iff, ne_eq, less_iff] at hab hba
  unfold Precedes at hab hba
  omega

theorem sorted_gateways (sorter : SortSlice Gateway) (l : List Gateway) :
    (sorter.sort less l).Pairwise fun a b => less b a = false :=
  sorter.ordered less l (fun _ _ => less_asymm) (fun _ _ _ => not_less_trans)

variable {s : Selector} {req : SelectRequest}

theorem firstEligible_cons (s : Selector) (req : SelectRequest) (gw : Gateway)
    (rest : List Gateway) : s.firstEligible req (gw :: rest) =
      if gw.active = false then s.firstEligible req rest
      else if (req.healthCache gw.id).any fun h => !h.healthy then s.firstEligible req rest
      else
        match s.getActiveCount req.tenantID gw req.activeCounts with
        | .error _ => s.firstEligible req rest
        | .ok active =>
          if gw.maxConcurrent.any fun cap => active ≥ cap then s.firstEligible req rest
          else .ok ⟨gw, active⟩ := rfl

theorem firstEligible_of_eligible {gw : Gateway} {count : Int} (h : Eligible s req gw count)
    (rest : List Gateway) : s.firstEligible req (gw :: rest) = .ok ⟨gw, count⟩ := by
  have hhealth : ((req.healthCache gw.id).any fun h => !h.healthy) = false := by
    cases hcache : req.healthCache gw.id with
    | none => rfl
    | some health => simp [h.healthy health hcache]
  have hcap : (gw.maxConcurrent.any fun cap => count ≥ cap) = false := by
    cases hmax : gw.maxConcurrent with
    | none => rfl
    | some cap => simpa using h.below cap hmax
  simp [firstEligible_cons, h.active, hhealth, h.counted, hcap]

theorem firstEligible_of_not_eligible {gw : Gateway} (h : ∀ count, ¬ Eligible s req gw count)
    (rest : List Gateway) : s.firstEligible req (gw :: rest) = s.firstEligible req rest := by
  by_cases hactive : gw.active = false
  · simp [firstEligible_cons, hactive]
  · by_cases hhealth : ((req.healthCache gw.id).any fun h => !h.healthy) = true
    · simp [firstEligible_cons, hactive, hhealth]
    · cases hcount : s.getActiveCount req.tenantID gw req.activeCounts with
      | error e => simp [firstEligible_cons, hactive, hhealth, hcount]
      | ok count =>
        by_cases hcap : (gw.maxConcurrent.any fun cap => count ≥ cap) = true
        · simp only [firstEligible_cons, hactive, hhealth, hcount, hcap, if_true, ite_self]
        · refine absurd ⟨?_, ?_, hcount, ?_⟩ (h count)
          · simpa using hactive
          · intro health hmem
            have hcache : req.healthCache gw.id = some health := hmem
            simpa [hcache] using hhealth
          · intro cap hmem
            have hmax : gw.maxConcurrent = some cap := hmem
            simpa [hmax] using hcap

/-- Over a sorted list the loop finds an eligible gateway that no eligible one precedes, and
fails where there is none. -/
theorem firstEligible_spec (s : Selector) (req : SelectRequest) {l : List Gateway}
    (hl : l.Pairwise fun a b => less b a = false) :
    (∀ res, s.firstEligible req l = .ok res →
      res.gateway ∈ l ∧ Eligible s req res.gateway res.activeCount ∧
        ∀ gw ∈ l, ∀ count, Eligible s req gw count → less gw res.gateway = false) ∧
      (s.firstEligible req l = .error errNoGateway ↔
        ∀ gw ∈ l, ∀ count, ¬ Eligible s req gw count) := by
  induction l with
  | nil => simp [Selector.firstEligible]
  | cons gw rest ih =>
    obtain ⟨hfirst, hrest⟩ := List.pairwise_cons.1 hl
    obtain ⟨hfound, hnone⟩ := ih hrest
    by_cases h : ∃ count, Eligible s req gw count
    · obtain ⟨count, heligible⟩ := h
      rw [firstEligible_of_eligible heligible rest]
      constructor
      · intro res hres
        obtain rfl : ⟨gw, count⟩ = res := Except.ok.inj hres
        refine ⟨List.mem_cons_self, heligible, fun other hother n _ => ?_⟩
        rcases List.mem_cons.1 hother with rfl | hother
        · cases hself : less other other with
          | false => rfl
          | true => exact hself.symm.trans (less_asymm hself)
        · exact hfirst other hother
      · refine iff_of_false (by simp) fun hall => ?_
        exact hall gw List.mem_cons_self count heligible
    · have hgw : ∀ count, ¬ Eligible s req gw count := fun count hc => h ⟨count, hc⟩
      rw [firstEligible_of_not_eligible hgw rest]
      constructor
      · intro res hres
        obtain ⟨hmem, heligible, hbest⟩ := hfound res hres
        refine ⟨List.mem_cons_of_mem _ hmem, heligible, fun other hother n hn => ?_⟩
        rcases List.mem_cons.1 hother with rfl | hother
        · exact absurd hn (hgw n)
        · exact hbest other hother n hn
      · rw [hnone, List.forall_mem_cons]
        exact ⟨fun hall => ⟨hgw, hall⟩, fun hall => hall.2⟩

theorem sort_unique {l l' : List Gateway} (hids : (l.map Gateway.id).Nodup) (hl : l'.Perm l)
    (sorter sorter' : SortSlice Gateway) : sorter'.sort less l' = sorter.sort less l := by
  have hinj : ∀ a ∈ l, ∀ b ∈ l, a.id = b.id → a = b := by
    intro a ha b hb hid
    exact List.inj_on_of_nodup_map hids ha hb hid
  have hperm : (sorter'.sort less l').Perm (sorter.sort less l) :=
    (sorter'.perm less l').trans (hl.trans (sorter.perm less l).symm)
  refine List.Perm.eq_of_pairwise ?_ (sorted_gateways sorter' l') (sorted_gateways sorter l) hperm
  intro a b ha hb hba hab
  have ha' : a ∈ l := hl.subset ((sorter'.perm less l').subset ha)
  have hb' : b ∈ l := (sorter.perm less l).subset hb
  exact hinj a ha' b hb' (id_eq_of_not_less hab hba)

/-- The gateway selected is eligible and no eligible gateway precedes it; the selection fails
just when no gateway is eligible; and neither the order of the list nor the sort matters. -/
theorem selectGateway_best (s : Selector) (sorter : SortSlice Gateway) (req : SelectRequest)
    (hids : (req.gateways.map Gateway.id).Nodup) :
    (∀ res, s.selectGateway sorter req = .ok res →
      res.gateway ∈ req.gateways ∧ Eligible s req res.gateway res.activeCount ∧
        ∀ gw ∈ req.gateways, ∀ count, Eligible s req gw count → ¬ Precedes gw res.gateway) ∧
      (s.selectGateway sorter req = .error errNoGateway ↔
        ∀ gw ∈ req.gateways, ∀ count, ¬ Eligible s req gw count) ∧
      ∀ (sorter' : SortSlice Gateway) (gateways : List Gateway), gateways.Perm req.gateways →
        s.selectGateway sorter' { req with gateways := gateways } =
          s.selectGateway sorter req := by
  have hmem : ∀ gw, gw ∈ sorter.sort less req.gateways ↔ gw ∈ req.gateways :=
    fun gw => (sorter.perm less req.gateways).mem_iff
  obtain ⟨hfound, hnone⟩ :=
    firstEligible_spec s req (sorted_gateways sorter req.gateways)
  refine ⟨fun res hres => ?_, ?_, fun sorter' gateways hperm => ?_⟩
  · obtain ⟨hin, heligible, hbest⟩ := hfound res hres
    refine ⟨(hmem _).1 hin, heligible, fun gw hgw count hcount hprecedes => ?_⟩
    have hless := hbest gw ((hmem gw).2 hgw) count hcount
    rw [(less_iff _ _).2 hprecedes] at hless
    cases hless
  · rw [Selector.selectGateway, hnone]
    exact forall_congr' fun gw => imp_congr_left (hmem gw)
  · have hcongr : ∀ l, s.firstEligible { req with gateways := gateways } l =
        s.firstEligible req l := by
      intro l
      induction l with
      | nil => rfl
      | cons gw rest ih => simp only [firstEligible_cons, ih]
    rw [Selector.selectGateway, hcongr, sort_unique hids hperm sorter sorter']
    rfl

def noCounters : Selector := ⟨none, defaultGWActiveKey⟩

/-- Two gateways; the preferred one is inactive. -/
def twoGateways : SelectRequest where
  tenantID := 1
  carrierID := 3
  gateways :=
    [⟨8, 1, 3, "backup", 20, 100, some 10, true, 1⟩,
      ⟨7, 1, 3, "primary", 10, 100, none, false, 1⟩]
  activeCounts _ := none
  healthCache _ := none

def backup : Gateway := ⟨8, 1, 3, "backup", 20, 100, some 10, true, 1⟩

theorem selectGateway_twoGateways :
    noCounters.selectGateway (.merge Gateway) twoGateways = .ok ⟨backup, 0⟩ := by
  have hsort : (SortSlice.merge Gateway).sort less twoGateways.gateways =
      twoGateways.gateways.reverse := by
    simp [SortSlice.merge, twoGateways, less, List.mergeSort, List.MergeSort.Internal.splitInTwo]
  rw [Selector.selectGateway, hsort]
  rfl

theorem selectGateway_best_of_two :
    (Eligible noCounters twoGateways backup 0 ∧ ∀ gw ∈ twoGateways.gateways, ∀ count,
        Eligible noCounters twoGateways gw count → ¬ Precedes gw backup) ∧
      (¬ ∀ gw ∈ twoGateways.gateways, ∀ count, ¬ Eligible noCounters twoGateways gw count) ∧
      noCounters.selectGateway (.merge Gateway)
        { twoGateways with gateways := twoGateways.gateways.reverse } = .ok ⟨backup, 0⟩ := by
  have hbest := selectGateway_best noCounters (.merge Gateway) twoGateways (by decide)
  rw [selectGateway_twoGateways] at hbest
  refine ⟨(hbest.1 _ rfl).2, ?_, hbest.2.2 _ _ (List.reverse_perm _)⟩
  intro hnone
  cases hbest.2.1.2 hnone

end Vici2.Routing
