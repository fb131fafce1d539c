import Vici2.PoolPicker
import Mathlib.Tactic.Linarith
import Mathlib.Tactic.Positivity
import Mathlib.Tactic.Ring

/-! The health-weighted choice of a caller id, over exact rationals. A weight divides the
health score by one more than the hours since the last use. -/

namespace Vici2.Pool

structure RatedMember extends PoolMember where
  healthScore : UInt8
  deriving DecidableEq

/-- A quotient, undefined where the divisor is zero. -/
def quotient (a b : ℚ) : Option ℚ := if b = 0 then none else some (a / b)

def hoursSince (now : Int) (m : RatedMember) : ℚ :=
  if 0 < m.lastUsedAt then ((now - m.lastUsedAt : Int) : ℚ) / 3600 else 0

def weightFloor : ℚ := 1 / 1000

def floorWeight (w : ℚ) : ℚ := if w < weightFloor then weightFloor else w

def weight (now : Int) (m : RatedMember) : Option ℚ :=
  (quotient m.healthScore.toNat (1 + hoursSince now m)).map floorWeight

def weights (now : Int) : List RatedMember → Option (List ℚ)
  | [] => some []
  | m :: rest =>
    match weight now m, weights now rest with
    | some w, some ws => some (w :: ws)
    | _, _ => none

/-- The loop of the weighted selection; `cum` is the weight of what it has passed. -/
def firstReaching {α : Type*} (r : ℚ) : ℚ → List (α × ℚ) → Option α
  | _, [] => none
  | cum, (m, w) :: rest => if r ≤ cum + w then some m else firstReaching r (cum + w) rest

/-- `r` is the random draw, scaled to the total weight. The outer `none` is a weight without a
value. -/
def pickHealthWeightedLRU (eligible : List RatedMember) (now : Int) (r : ℚ) :
    Option (Option RatedMember) :=
  (weights now eligible).map fun ws =>
    (firstReaching r 0 (eligible.zip ws)).or eligible.getLast?

/-- The weights are defined and positive, of two used members of equal health the one used
longer ago has at least the weight of the other, and a draw up to the total selects the first
member whose cumulative weight reaches it. -/
structure Rotates (eligible : List RatedMember) (now : Int) : Prop where
  defined : (weights now eligible).isSome = true
  positive : ∀ ws ∈ weights now eligible, ∀ w ∈ ws, 0 < w
  ordered : ∀ a ∈ eligible, ∀ b ∈ eligible, a.healthScore = b.healthScore →
    0 < a.lastUsedAt → a.lastUsedAt < b.lastUsedAt →
    ∀ wa ∈ weight now a, ∀ wb ∈ weight now b, wb ≤ wa
  selected : ∀ ws ∈ weights now eligible, eligible ≠ [] → ∀ r, 0 ≤ r → r ≤ ws.sum →
    ∃ i m, eligible[i]? = some m ∧ pickHealthWeightedLRU eligible now r = some (some m) ∧
      r ≤ (ws.take (i + 1)).sum ∧ ∀ j < i, (ws.take (j + 1)).sum < r

def divisor (now : Int) (m : RatedMember) : ℚ := 1 + hoursSince now m

theorem firstReaching_spec {α : Type*} {r : ℚ} (cum : ℚ) {l : List (α × ℚ)} (hl : l ≠ [])
    (hr : r ≤ cum + (l.map Prod.snd).sum) :
    ∃ i a, (l.map Prod.fst)[i]? = some a ∧ firstReaching r cum l = some a ∧
      r ≤ cum + ((l.map Prod.snd).take (i + 1)).sum ∧
      ∀ j < i, cum + ((l.map Prod.snd).take (j + 1)).sum < r := by
  induction l generalizing cum with
  | nil => exact absurd rfl hl
  | cons x rest ih =>
    obtain ⟨m, w⟩ := x
    by_cases hw : r ≤ cum + w
    · refine ⟨0, m, rfl, if_pos hw, ?_, fun j hj => absurd hj (Nat.not_lt_zero j)⟩
      simpa using hw
    · have hsum : cum + ((m, w) :: rest |>.map Prod.snd).sum =
          cum + w + (rest.map Prod.snd).sum := by
        simp [add_assoc]
      rw [hsum] at hr
      have hrest : rest ≠ [] := by
        intro hnil
        rw [hnil] at hr
        exact hw (by simpa using hr)
      obtain ⟨i, a, ha, hpick, hreach, hbefore⟩ := ih (cum + w) hrest hr
      refine ⟨i + 1, a, ha, (if_neg hw).trans hpick, ?_, ?_⟩
      · simpa [add_assoc] using hreach
      · intro j hj
        cases j with
        | zero => simpa using not_le.1 hw
        | succ j =>
          have hj' := hbefore j (Nat.lt_of_succ_lt_succ hj)
          simpa [add_assoc] using hj'

theorem weightFloor_pos : 0 < weightFloor := by norm_num [weightFloor]

theorem floorWeight_pos (w : ℚ) : 0 < floorWeight w := by
  unfold floorWeight
  split_ifs with h
  · exact weightFloor_pos
  · exact lt_of_lt_of_le weightFloor_pos (not_lt.1 h)

theorem floorWeight_le_iff (u v : ℚ) :
    floorWeight u ≤ floorWeight v ↔ u ≤ v ∨ u ≤ weightFloor := by
  unfold floorWeight
  by_cases hu : u < weightFloor
  · by_cases hv : v < weightFloor
    · simp [hu, hv, hu.le]
    · simp [hu, hv, hu.le, not_lt.1 hv]
  · by_cases hv : v < weightFloor
    · have huv : ¬ u ≤ v := fun hle => hu (lt_of_le_of_lt hle hv)
      simp [hu, hv, huv]
    · have hfloor : u ≤ weightFloor → u ≤ v := fun hle => hle.trans (not_lt.1 hv)
      simp only [if_neg hu, if_neg hv]
      exact ⟨Or.inl, fun h => h.elim id hfloor⟩

theorem weight_eq_some_iff {now : Int} {m : RatedMember} {w : ℚ} :
    weight now m = some w ↔
      divisor now m ≠ 0 ∧ floorWeight (m.healthScore.toNat / divisor now m) = w := by
  by_cases h : divisor now m = 0
  · have h' : 1 + hoursSince now m = 0 := h
    simp [weight, quotient, h, h']
  · have h' : 1 + hoursSince now m ≠ 0 := h
    simp [weight, quotient, divisor, h']

theorem divisor_of_used {now : Int} {m : RatedMember} (h : 0 < m.lastUsedAt) :
    divisor now m = 1 + (now - m.lastUsedAt : ℚ) / 3600 := by
  simp [divisor, hoursSince, h]

theorem divisor_pos_iff {now : Int} {m : RatedMember} (h : 0 < m.lastUsedAt) :
    0 < divisor now m ↔ m.lastUsedAt < now + 3600 := by
  have hcast : m.lastUsedAt < now + 3600 ↔ (m.lastUsedAt : ℚ) < now + 3600 := by
    exact_mod_cast Iff.rfl
  rw [divisor_of_used h, hcast]
  constructor
  · intro hpos
    linarith
  · intro hlt
    linarith

theorem divisor_neg_iff {now : Int} {m : RatedMember} (h : 0 < m.lastUsedAt) :
    divisor now m < 0 ↔ now + 3600 < m.lastUsedAt := by
  have hcast : now + 3600 < m.lastUsedAt ↔ (now + 3600 : ℚ) < m.lastUsedAt := by
    exact_mod_cast Iff.rfl
  rw [divisor_of_used h, hcast]
  constructor
  · intro hneg
    linarith
  · intro hlt
    linarith

theorem divisor_ne_zero_iff (now : Int) (m : RatedMember) :
    divisor now m ≠ 0 ↔ (0 < m.lastUsedAt → m.lastUsedAt ≠ now + 3600) := by
  by_cases h : 0 < m.lastUsedAt
  · rw [ne_iff_lt_or_gt, divisor_neg_iff h, divisor_pos_iff h]
    constructor
    · intro hne _
      omega
    · intro hne
      have hne' := hne h
      omega
  · simp [divisor, hoursSince, h]

theorem divisor_lt {now : Int} {a b : RatedMember} (h : 0 < a.lastUsedAt)
    (hlt : a.lastUsedAt < b.lastUsedAt) : divisor now b < divisor now a := by
  have hcast : (a.lastUsedAt : ℚ) < b.lastUsedAt := by exact_mod_cast hlt
  rw [divisor_of_used h, divisor_of_used (h.trans hlt)]
  linarith

/-- Of two used members of one health score, the weights keep the later one behind only where
its divisor is negative or its weight is at the floor. -/
theorem floorWeight_ordered_iff {now : Int} {a b : RatedMember} (h : 0 < a.lastUsedAt)
    (hlt : a.lastUsedAt < b.lastUsedAt) (hne : divisor now b ≠ 0) (score : Nat) :
    floorWeight (score / divisor now b) ≤ floorWeight (score / divisor now a) ↔
      now + 3600 < b.lastUsedAt ∨ 1000 * (score : ℚ) ≤ divisor now b := by
  have hscore : (0 : ℚ) ≤ score := Nat.cast_nonneg score
  have hused : 0 < b.lastUsedAt := h.trans hlt
  rw [floorWeight_le_iff, ← divisor_neg_iff hused]
  rcases lt_or_gt_of_ne hne with hneg | hpos
  · have hlow : score / divisor now b ≤ 0 := div_nonpos_of_nonneg_of_nonpos hscore hneg.le
    exact iff_of_true (Or.inr (hlow.trans weightFloor_pos.le)) (Or.inl hneg)
  · have hdiv : divisor now b < divisor now a := divisor_lt h hlt
    have hfloor : score / divisor now b ≤ weightFloor ↔ 1000 * (score : ℚ) ≤ divisor now b := by
      rw [div_le_iff₀ hpos, weightFloor]
      constructor
      · intro hle
        linarith
      · intro hle
        linarith
    rw [hfloor]
    constructor
    · rintro (hle | hle)
      · right
        have hcross := (div_le_div_iff₀ hpos (hpos.trans hdiv)).1 hle
        have hzero : (score : ℚ) * (divisor now a - divisor now b) ≤ 0 := by
          rw [mul_sub]
          linarith
        have hnonpos : (score : ℚ) ≤ 0 :=
          nonpos_of_mul_nonpos_left hzero (sub_pos.2 hdiv)
        linarith
      · exact Or.inr hle
    · rintro (hneg | hle)
      · exact absurd hneg (not_lt.2 hpos.le)
      · exact Or.inr hle

theorem weights_isSome_iff (now : Int) (l : List RatedMember) :
    (weights now l).isSome = true ↔ ∀ m ∈ l, divisor now m ≠ 0 := by
  induction l with
  | nil => simp [weights]
  | cons m rest ih =>
    rw [List.forall_mem_cons, ← ih]
    by_cases h : divisor now m = 0
    · have hnone : weight now m = none := by
        rw [Option.eq_none_iff_forall_ne_some]
        exact fun w hw => (weight_eq_some_iff.1 hw).1 h
      simp [weights, hnone, h]
    · have hsome := weight_eq_some_iff.2 ⟨h, rfl⟩
      cases hrest : weights now rest with
      | none => simp [weights, hsome, hrest]
      | some ws => simp [weights, hsome, hrest, h]

theorem weights_spec {now : Int} {l : List RatedMember} {ws : List ℚ}
    (h : weights now l = some ws) : ws.length = l.length ∧ ∀ w ∈ ws, 0 < w := by
  induction l generalizing ws with
  | nil =>
    have hws : [] = ws := Option.some.inj h
    simp [← hws]
  | cons m rest ih =>
    cases hm : weight now m with
    | none => simp [weights, hm] at h
    | some w =>
      cases hrest : weights now rest with
      | none => simp [weights, hm, hrest] at h
      | some tail =>
        obtain ⟨hlength, hpos⟩ := ih hrest
        have hws : w :: tail = ws := by simpa [weights, hm, hrest] using h
        have hw : 0 < w := by
          rw [← (weight_eq_some_iff.1 hm).2]
          exact floorWeight_pos _
        rw [← hws]
        exact ⟨by simp [hlength], List.forall_mem_cons.2 ⟨hw, hpos⟩⟩

theorem pick_selected {now : Int} {l : List RatedMember} {ws : List ℚ}
    (h : weights now l = some ws) (hl : l ≠ []) {r : ℚ} (hr : r ≤ ws.sum) :
    ∃ i m, l[i]? = some m ∧ pickHealthWeightedLRU l now r = some (some m) ∧
      r ≤ (ws.take (i + 1)).sum ∧ ∀ j < i, (ws.take (j + 1)).sum < r := by
  obtain ⟨hlength, -⟩ := weights_spec h
  have hfst : (l.zip ws).map Prod.fst = l := List.map_fst_zip hlength.ge
  have hsnd : (l.zip ws).map Prod.snd = ws := List.map_snd_zip hlength.le
  have hzip : l.zip ws ≠ [] := by
    intro hnil
    rw [hnil] at hfst
    exact hl hfst.symm
  obtain ⟨i, m, hm, hpick, hreach, hbefore⟩ :=
    firstReaching_spec 0 hzip (r := r) (by rw [hsnd, zero_add]; exact hr)
  simp only [hfst, hsnd, zero_add] at hm hreach hbefore
  refine ⟨i, m, hm, ?_, hreach, hbefore⟩
  simp [pickHealthWeightedLRU, h, hpick]

theorem firstReaching_mem {α : Type*} {r cum : ℚ} {l : List (α × ℚ)} {a : α}
    (h : firstReaching r cum l = some a) : a ∈ l.map Prod.fst := by
  induction l generalizing cum with
  | nil => cases h
  | cons x rest ih =>
    obtain ⟨m, w⟩ := x
    by_cases hw : r ≤ cum + w
    · have ha : m = a := by simpa [firstReaching, hw] using h
      simp [ha]
    · have htail : firstReaching r (cum + w) rest = some a := by
        simpa [firstReaching, hw] using h
      exact List.mem_cons_of_mem _ (ih htail)

theorem pick_mem {now : Int} {l : List RatedMember} {r : ℚ} {m : RatedMember}
    (h : pickHealthWeightedLRU l now r = some (some m)) : m ∈ l := by
  obtain ⟨ws, hws, hpick⟩ := Option.map_eq_some_iff.1 h
  cases hfirst : firstReaching r 0 (l.zip ws) with
  | some a =>
    have ha : a = m := by simpa [hfirst] using hpick
    have hfst : (l.zip ws).map Prod.fst = l := List.map_fst_zip (weights_spec hws).1.ge
    rw [← ha, ← hfst]
    exact firstReaching_mem hfirst
  | none =>
    have hlast : l.getLast? = some m := by simpa [hfirst] using hpick
    exact List.mem_of_getLast? hlast

/-- A pick of the protocol that leaves the choice to a random number can make this choice. -/
theorem pickRandom_of_pick {candidates : List Candidate} {rate : Candidate → RatedMember}
    {now : Int} {r : ℚ} {m : RatedMember}
    (h : pickHealthWeightedLRU (candidates.map rate) now r = some (some m)) :
    ∃ n, (pickRandom candidates n).map rate = some m := by
  obtain ⟨candidate, hmem, rfl⟩ := List.mem_map.1 (pick_mem h)
  obtain ⟨n, hn, hget⟩ := List.mem_iff_getElem.1 hmem
  refine ⟨n, ?_⟩
  rw [pickRandom, Nat.mod_eq_of_lt hn, List.getElem?_eq_getElem hn, hget]
  rfl

/-- The rotation does what it is for just when no member was used an hour from now and of any
two used members of one health score the later one is in the future by more than that, or at
the floor. -/
theorem rotates_iff (eligible : List RatedMember) (now : Int) :
    Rotates eligible now ↔
      (∀ m ∈ eligible, 0 < m.lastUsedAt → m.lastUsedAt ≠ now + 3600) ∧
        ∀ a ∈ eligible, ∀ b ∈ eligible, a.healthScore = b.healthScore →
          0 < a.lastUsedAt → a.lastUsedAt < b.lastUsedAt →
          now + 3600 < b.lastUsedAt ∨
            1000 * (b.healthScore.toNat : ℚ) ≤ 1 + (now - b.lastUsedAt : ℚ) / 3600 := by
  have hdefined : (weights now eligible).isSome = true ↔
      ∀ m ∈ eligible, 0 < m.lastUsedAt → m.lastUsedAt ≠ now + 3600 := by
    rw [weights_isSome_iff]
    exact forall₂_congr fun m _ => divisor_ne_zero_iff now m
  have hordered : ∀ a b : RatedMember, a.healthScore = b.healthScore → 0 < a.lastUsedAt →
      a.lastUsedAt < b.lastUsedAt → divisor now a ≠ 0 → divisor now b ≠ 0 →
      ((∀ wa ∈ weight now a, ∀ wb ∈ weight now b, wb ≤ wa) ↔
        now + 3600 < b.lastUsedAt ∨
          1000 * (b.healthScore.toNat : ℚ) ≤ 1 + (now - b.lastUsedAt : ℚ) / 3600) := by
    intro a b hscore ha hlt hda hdb
    have hwa := weight_eq_some_iff.2 ⟨hda, rfl⟩
    have hwb := weight_eq_some_iff.2 ⟨hdb, rfl⟩
    rw [hwa, hwb, ← divisor_of_used (ha.trans hlt), hscore]
    simp only [Option.mem_some_iff, forall_eq']
    exact floorWeight_ordered_iff ha hlt hdb _
  constructor
  · intro h
    have hne := (weights_isSome_iff now eligible).1 h.defined
    refine ⟨hdefined.1 h.defined, fun a ha b hb hscore hused hlt => ?_⟩
    have hle := h.ordered a ha b hb hscore hused hlt
    exact (hordered a b hscore hused hlt (hne a ha) (hne b hb)).1 hle
  · rintro ⟨hfuture, hpairs⟩
    have hsome := hdefined.2 hfuture
    have hne := (weights_isSome_iff now eligible).1 hsome
    refine ⟨hsome, fun ws hws => (weights_spec hws).2, ?_, ?_⟩
    · intro a ha b hb hscore hused hlt
      have hpair := hpairs a ha b hb hscore hused hlt
      exact (hordered a b hscore hused hlt (hne a ha) (hne b hb)).2 hpair
    · intro ws hws hl r _ hr
      exact pick_selected hws hl hr

/-- Two numbers of full health, one used two hours ago and one an hour ago: the weight of the
fresh one is the larger. -/
theorem fresh_number_preferred :
    ¬ Rotates
      [⟨⟨1, 11, "+12025550111", "202", 1000000000, false⟩, 100⟩,
        ⟨⟨2, 12, "+12025550112", "202", 1000003600, false⟩, 100⟩] 1000007200 := by
  intro h
  have hle := h.ordered _ List.mem_cons_self _ (List.mem_cons_of_mem _ List.mem_cons_self) rfl
    (by decide) (by decide) (100 / 3) (by decide +kernel) 50 (by decide +kernel)
  norm_num at hle

end Vici2.Pool
