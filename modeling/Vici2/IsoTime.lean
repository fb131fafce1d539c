import Mathlib.Data.List.Basic
import Mathlib.Tactic.IntervalCases

/-! ISO 8601 texts of instants, counted from 1970-01-01 in UTC. -/

namespace Vici2

namespace IsoTime

/-- Year, month and day of the `z`-th day. -/
def civil (z : Int) : Int × Int × Int :=
  let z := z + 719468
  let era := z / 146097
  let doe := z % 146097
  let yoe := (doe - doe / 1460 + doe / 36524 - doe / 146096) / 365
  let doy := doe - (365 * yoe + yoe / 4 - yoe / 100)
  let mp := (5 * doy + 2) / 153
  let d := doy - (153 * mp + 2) / 5 + 1
  let m := if mp < 10 then mp + 3 else mp - 9
  (if m ≤ 2 then yoe + era * 400 + 1 else yoe + era * 400, m, d)

/-- The last `k` decimal digits of `n`. -/
def fixedDigits (k n : Nat) : List Char :=
  (List.range k).map fun i => Nat.digitChar (n / 10 ^ (k - 1 - i) % 10)

def dateText (day : Int) : List Char :=
  let c := civil day
  fixedDigits 4 c.1.toNat ++ '-' :: fixedDigits 2 c.2.1.toNat ++ '-' :: fixedDigits 2 c.2.2.toNat

/-- `YYYY-MM-DDThh:mm:ss` -/
def secondsText (t : Int) : List Char :=
  let s := (t % 86400).toNat
  dateText (t / 86400) ++ 'T' :: fixedDigits 2 (s / 3600) ++ ':' :: fixedDigits 2 (s / 60 % 60) ++
    ':' :: fixedDigits 2 (s % 60)

def millisText (ms : Int) : List Char :=
  secondsText (ms / 1000) ++ '.' :: fixedDigits 3 (ms % 1000).toNat

def microsText (us : Int) : List Char :=
  secondsText (us / 1000000) ++ '.' :: fixedDigits 6 (us % 1000000).toNat

theorem digitChar_inj {a b : Nat} (ha : a < 10) (hb : b < 10)
    (h : Nat.digitChar a = Nat.digitChar b) : a = b := by
  interval_cases a <;> interval_cases b <;> first | rfl | (revert h; decide)

theorem fixedDigits_three (n : Nat) : fixedDigits 3 n =
    [Nat.digitChar (n / 100 % 10), Nat.digitChar (n / 10 % 10), Nat.digitChar (n % 10)] := by
  simp [fixedDigits, List.range_succ]

theorem fixedDigits_six (n : Nat) : fixedDigits 6 n = fixedDigits 3 (n / 1000) ++ fixedDigits 3 n := by
  have h1 : n / 100000 = n / 1000 / 100 := by omega
  have h2 : n / 10000 = n / 1000 / 10 := by omega
  rw [fixedDigits_three, fixedDigits_three]
  simp [fixedDigits, List.range_succ, h1, h2]

theorem fixedDigits_three_eq_zero {n : Nat} : fixedDigits 3 n = ['0', '0', '0'] ↔ n % 1000 = 0 := by
  have hzero : ∀ a, a < 10 → (Nat.digitChar a = '0' ↔ a = 0) := by
    intro a ha
    exact ⟨fun h => digitChar_inj ha (by omega) h, fun h => by rw [h]; rfl⟩
  rw [fixedDigits_three]
  simp only [List.cons.injEq, and_true]
  rw [hzero _ (by omega), hzero _ (by omega), hzero _ (by omega)]
  omega

theorem millisText_eq_microsText {us : Int} :
    millisText (us / 1000) ++ ['0', '0', '0'] = microsText us ↔ us % 1000 = 0 := by
  have hsec : us / 1000 / 1000 = us / 1000000 := by omega
  have hms : (us / 1000 % 1000).toNat = (us % 1000000).toNat / 1000 := by omega
  unfold millisText microsText
  rw [hsec, hms, fixedDigits_six, List.append_assoc, List.append_cancel_left_eq, List.cons_append,
    List.cons.injEq]
  simp only [true_and, List.append_cancel_left_eq]
  rw [eq_comm, fixedDigits_three_eq_zero]
  omega

theorem length_fixedDigits (k n : Nat) : (fixedDigits k n).length = k := by
  unfold fixedDigits
  rw [List.length_map, List.length_range]

theorem fixedDigits_succ (k n : Nat) :
    fixedDigits (k + 1) n = fixedDigits k (n / 10) ++ [Nat.digitChar (n % 10)] := by
  unfold fixedDigits
  rw [List.range_succ, List.map_append]
  congr 1
  · apply List.map_congr_left
    intro i hi
    have hlt := List.mem_range.1 hi
    have hexp : k + 1 - 1 - i = (k - 1 - i) + 1 := by omega
    rw [hexp, Nat.pow_succ', Nat.div_div_eq_div_mul]
  · simp

theorem fixedDigits_inj {k n m : Nat} (h : fixedDigits k n = fixedDigits k m) :
    n % 10 ^ k = m % 10 ^ k := by
  induction k generalizing n m with
  | zero => rw [Nat.pow_zero, Nat.mod_one, Nat.mod_one]
  | succ k ih =>
    rw [fixedDigits_succ, fixedDigits_succ] at h
    obtain ⟨hinit, hlast⟩ := List.append_inj' h rfl
    have hdigit : n % 10 = m % 10 :=
      digitChar_inj (by omega) (by omega) (List.cons.inj hlast).1
    have hhigh := ih hinit
    rw [Nat.pow_succ', Nat.mod_mul, Nat.mod_mul, hdigit, hhigh]

theorem fixedDigits_two_inj {n m : Nat} (hn : n < 100) (hm : m < 100)
    (h : fixedDigits 2 n = fixedDigits 2 m) : n = m := by
  have hmod := fixedDigits_inj h
  omega

/-- Year of the era and day of the year, counted from the first of March. -/
def yearOfEra (doe : Int) : Int := (doe - doe / 1460 + doe / 36524 - doe / 146096) / 365

def dayOfYear (doe : Int) : Int :=
  doe - (365 * yearOfEra doe + yearOfEra doe / 4 - yearOfEra doe / 100)

theorem yearOfEra_bounds {doe : Int} (h0 : 0 ≤ doe) (h1 : doe ≤ 146096) :
    0 ≤ yearOfEra doe ∧ yearOfEra doe ≤ 399 := by
  unfold yearOfEra
  omega

theorem dayOfYear_bounds {doe : Int} (h0 : 0 ≤ doe) (h1 : doe ≤ 146096) :
    0 ≤ dayOfYear doe ∧ dayOfYear doe ≤ 365 := by
  unfold dayOfYear
  obtain ⟨yoe, hyoe⟩ : ∃ y, y = yearOfEra doe := ⟨_, rfl⟩
  obtain ⟨c, hc⟩ : ∃ c, c = doe / 36524 := ⟨_, rfl⟩
  rw [← hyoe]
  unfold yearOfEra at hyoe
  have hcentury : 0 ≤ c ∧ c ≤ 4 := by omega
  have hyears : yoe / 100 ≤ c ∧ c ≤ yoe / 100 + 1 := by omega
  have hleaps : yoe / 4 ≤ doe / 1460 ∧ doe / 1460 ≤ yoe / 4 + 1 := by omega
  obtain ⟨hc0, hc4⟩ := hcentury
  constructor
  · interval_cases c <;> omega
  · interval_cases c <;> omega

theorem civil_eq (z : Int) :
    let doe := (z + 719468) % 146097
    let mp := (5 * dayOfYear doe + 2) / 153
    let m := if mp < 10 then mp + 3 else mp - 9
    let y := yearOfEra doe + (z + 719468) / 146097 * 400
    civil z = (if m ≤ 2 then y + 1 else y, m, dayOfYear doe - (153 * mp + 2) / 5 + 1) := rfl

theorem civil_inj {z z' : Int} (h : civil z = civil z') : z = z' := by
  have hdoe : 0 ≤ (z + 719468) % 146097 ∧ (z + 719468) % 146097 ≤ 146096 := by omega
  have hdoe' : 0 ≤ (z' + 719468) % 146097 ∧ (z' + 719468) % 146097 ≤ 146096 := by omega
  have hy := yearOfEra_bounds hdoe.1 hdoe.2
  have hy' := yearOfEra_bounds hdoe'.1 hdoe'.2
  have hd := dayOfYear_bounds hdoe.1 hdoe.2
  have hd' := dayOfYear_bounds hdoe'.1 hdoe'.2
  rw [civil_eq, civil_eq, Prod.mk.injEq, Prod.mk.injEq] at h
  obtain ⟨hyear, hmonth, hday⟩ := h
  have hmp : (5 * dayOfYear ((z + 719468) % 146097) + 2) / 153 =
      (5 * dayOfYear ((z' + 719468) % 146097) + 2) / 153 := by
    split at hmonth <;> split at hmonth <;> omega
  rw [hmp] at hyear hday
  have hdoy : dayOfYear ((z + 719468) % 146097) = dayOfYear ((z' + 719468) % 146097) := by omega
  have heras : yearOfEra ((z + 719468) % 146097) + (z + 719468) / 146097 * 400 =
      yearOfEra ((z' + 719468) % 146097) + (z' + 719468) / 146097 * 400 := by
    split at hyear <;> omega
  have hyoe : yearOfEra ((z + 719468) % 146097) = yearOfEra ((z' + 719468) % 146097) := by omega
  unfold dayOfYear at hdoy
  rw [hyoe] at hdoy heras
  omega

theorem civil_month_day (z : Int) :
    (1 ≤ (civil z).2.1 ∧ (civil z).2.1 ≤ 12) ∧ 1 ≤ (civil z).2.2 ∧ (civil z).2.2 ≤ 31 := by
  have hdoe : 0 ≤ (z + 719468) % 146097 ∧ (z + 719468) % 146097 ≤ 146096 := by omega
  have hd := dayOfYear_bounds hdoe.1 hdoe.2
  rw [civil_eq]
  refine ⟨?_, ?_⟩
  · dsimp only
    split <;> omega
  · dsimp only
    omega

theorem civil_bounds {z : Int} (h0 : 0 ≤ z) (h1 : z < 2932897) :
    (1 ≤ (civil z).1 ∧ (civil z).1 ≤ 10000) ∧ (1 ≤ (civil z).2.1 ∧ (civil z).2.1 ≤ 12) ∧
      1 ≤ (civil z).2.2 ∧ (civil z).2.2 ≤ 31 := by
  have hdoe : 0 ≤ (z + 719468) % 146097 ∧ (z + 719468) % 146097 ≤ 146096 := by omega
  have hy := yearOfEra_bounds hdoe.1 hdoe.2
  have hera : 4 ≤ (z + 719468) / 146097 ∧ (z + 719468) / 146097 ≤ 24 := by omega
  refine ⟨?_, civil_month_day z⟩
  rw [civil_eq]
  dsimp only
  split <;> omega

theorem dateText_inj {z z' : Int} (h0 : 0 ≤ z) (h1 : z < 2932897) (h0' : 0 ≤ z')
    (h1' : z' < 2932897) (h : dateText z = dateText z') : z = z' := by
  obtain ⟨hy, hm, hd⟩ := civil_bounds h0 h1
  obtain ⟨hy', hm', hd'⟩ := civil_bounds h0' h1'
  unfold dateText at h
  dsimp only at h
  rw [List.append_assoc, List.append_assoc] at h
  obtain ⟨hyear, h⟩ := List.append_inj h (by rw [length_fixedDigits, length_fixedDigits])
  rw [List.cons_append, List.cons_append, List.cons.injEq] at h
  obtain ⟨hmonth, h⟩ := List.append_inj h.2 (by rw [length_fixedDigits, length_fixedDigits])
  have hday := (List.cons.inj h).2
  have hyeq := fixedDigits_inj hyear
  have hmeq := fixedDigits_two_inj (by omega) (by omega) hmonth
  have hdeq := fixedDigits_two_inj (by omega) (by omega) hday
  apply civil_inj
  apply Prod.ext
  · omega
  · apply Prod.ext
    · omega
    · omega

theorem length_dateText (z : Int) : (dateText z).length = 10 := by
  unfold dateText
  simp only [List.length_append, List.length_cons, length_fixedDigits]

theorem length_secondsText (t : Int) : (secondsText t).length = 19 := by
  unfold secondsText
  simp only [List.length_append, List.length_cons, length_fixedDigits, length_dateText]

theorem secondsText_inj {t t' : Int} (h0 : 0 ≤ t) (h1 : t < 253402300800) (h0' : 0 ≤ t')
    (h1' : t' < 253402300800) (h : secondsText t = secondsText t') : t = t' := by
  unfold secondsText at h
  dsimp only at h
  simp only [List.append_assoc, List.cons_append] at h
  obtain ⟨hdate, h⟩ := List.append_inj h (by rw [length_dateText, length_dateText])
  obtain ⟨hhour, h⟩ := List.append_inj (List.cons.inj h).2
    (by rw [length_fixedDigits, length_fixedDigits])
  obtain ⟨hminute, h⟩ := List.append_inj (List.cons.inj h).2
    (by rw [length_fixedDigits, length_fixedDigits])
  have hsecond := (List.cons.inj h).2
  have hdeq := dateText_inj (by omega) (by omega) (by omega) (by omega) hdate
  have hheq := fixedDigits_two_inj (by omega) (by omega) hhour
  have hmeq := fixedDigits_two_inj (by omega) (by omega) hminute
  have hseq := fixedDigits_two_inj (by omega) (by omega) hsecond
  omega

theorem take_millisText_midnight (day : Int) :
    (millisText (day * 86400000)).take 10 = dateText day := by
  have hday : day * 86400000 / 1000 / 86400 = day := by omega
  unfold millisText secondsText
  rw [hday]
  simp only [List.append_assoc]
  rw [List.take_append_of_le_length (by rw [length_dateText])]
  exact List.take_of_length_le (by rw [length_dateText])

end IsoTime

end Vici2
