import Vici2.PartitionDrops

/-! Monthly partitions: the partition of a month is named after it and ends where the
next month starts. The order of the names is the order of the months. -/

namespace Vici2

namespace Partition

open IsoTime JsDate

/-- The first day of a month, the months counted from January of the year 0. -/
def monthDay (m : Int) : Int := makeDay 0 m 1

def monthName (m : Int) : String := partitionNameFromBoundary (monthDay m * msPerDay)

/-- The partition is the one of the month `m`. -/
structure IsMonth (p : SchemaPartition) (m : Int) : Prop where
  four_digits : 12000 ≤ m ∧ m < 119999
  name : p.name = monthName m
  bound : DateBound p.description (monthDay (m + 1))

section TextOrder

variable {s t u : List Char}

theorem textLe_refl (s : List Char) : textLe s s = true := by
  induction s with
  | nil => rfl
  | cons a s ih => simp [textLe, ih]

theorem textLe_cons {a b : Char} : textLe (a :: s) (b :: t) = true ↔
    a.toNat < b.toNat ∨ a = b ∧ textLe s t = true := by
  simp only [textLe, Bool.or_eq_true, decide_eq_true_eq, Bool.and_eq_true, beq_iff_eq]
  rw [Char.toNat_inj]

theorem textLe_total (s t : List Char) : textLe s t = true ∨ textLe t s = true := by
  induction s generalizing t with
  | nil => exact Or.inl rfl
  | cons a s ih =>
    cases t with
    | nil => exact Or.inr rfl
    | cons b t =>
      rw [textLe_cons, textLe_cons]
      rcases Nat.lt_trichotomy a.toNat b.toNat with hlt | heq | hgt
      · exact Or.inl (Or.inl hlt)
      · have hab := Char.toNat_inj.1 heq
        rcases ih t with hle | hle
        · exact Or.inl (Or.inr ⟨hab, hle⟩)
        · exact Or.inr (Or.inr ⟨hab.symm, hle⟩)
      · exact Or.inr (Or.inl hgt)

theorem textLe_trans (hst : textLe s t = true) (htu : textLe t u = true) : textLe s u = true := by
  induction s generalizing t u with
  | nil => rfl
  | cons a s ih =>
    cases t with
    | nil => cases hst
    | cons b t =>
      cases u with
      | nil => cases htu
      | cons c u =>
        rw [textLe_cons] at hst htu ⊢
        rcases hst with hlt | ⟨rfl, hst⟩
        · rcases htu with hlt' | ⟨rfl, -⟩
          · exact Or.inl (Nat.lt_trans hlt hlt')
          · exact Or.inl hlt
        · rcases htu with hlt | ⟨rfl, htu⟩
          · exact Or.inl hlt
          · exact Or.inr ⟨rfl, ih hst htu⟩

theorem textLe_antisymm (hst : textLe s t = true) (hts : textLe t s = true) : s = t := by
  induction s generalizing t with
  | nil =>
    cases t with
    | nil => rfl
    | cons b t => cases hts
  | cons a s ih =>
    cases t with
    | nil => cases hst
    | cons b t =>
      rw [textLe_cons] at hst hts
      rcases hst with hlt | ⟨rfl, hst⟩
      · rcases hts with hlt' | ⟨rfl, -⟩
        · omega
        · omega
      · rcases hts with hlt | ⟨-, hts⟩
        · omega
        · rw [ih hst hts]

theorem textLe_append_left (r : List Char) : textLe (r ++ s) (r ++ t) = textLe s t := by
  induction r with
  | nil => rfl
  | cons a r ih => simp [textLe, ih]

theorem digitChar_toNat {a : Nat} (ha : a < 10) : (Nat.digitChar a).toNat = 48 + a := by
  interval_cases a <;> rfl

/-- Texts that start with numbers of the same width are in the order of the numbers. -/
theorem textLe_fixedDigits {k n m : Nat} (hn : n < 10 ^ k) (hm : m < 10 ^ k)
    (h : textLe (fixedDigits k n ++ s) (fixedDigits k m ++ t) = true) :
    n < m ∨ n = m ∧ textLe s t = true := by
  induction k generalizing n m s t with
  | zero =>
    rw [Nat.pow_zero] at hn hm
    exact Or.inr ⟨by omega, h⟩
  | succ k ih =>
    rw [Nat.pow_succ] at hn hm
    rw [fixedDigits_succ, fixedDigits_succ, List.append_assoc, List.append_assoc] at h
    rcases ih (Nat.div_lt_of_lt_mul (by omega)) (Nat.div_lt_of_lt_mul (by omega)) h with hlt | ⟨heq, h⟩
    · left
      omega
    · rw [List.singleton_append, List.singleton_append, textLe_cons,
        digitChar_toNat (Nat.mod_lt n (by decide)), digitChar_toNat (Nat.mod_lt m (by decide))] at h
      rcases h with hlt | ⟨hdigit, h⟩
      · left
        omega
      · have hlast := digitChar_inj (Nat.mod_lt n (by decide)) (Nat.mod_lt m (by decide)) hdigit
        exact Or.inr ⟨by omega, h⟩

end TextOrder

section Months

variable {a b m : Int} {p q : SchemaPartition}

theorem toDigits_fixedDigits (n : Nat) (k : Nat) (h0 : 10 ^ k ≤ n) (h1 : n < 10 ^ (k + 1)) :
    Nat.toDigits 10 n = fixedDigits (k + 1) n := by
  induction k generalizing n with
  | zero =>
    have hlt : n < 10 := by omega
    rw [Nat.toDigits_of_lt_base hlt, fixedDigits_succ, Nat.mod_eq_of_lt hlt]
    rfl
  | succ k ih =>
    have hpow : 0 < 10 ^ k := Nat.pow_pos (by decide)
    rw [Nat.pow_succ] at h0 h1
    have hbase : 10 ≤ n := by omega
    rw [Nat.toDigits_of_base_le (by decide) hbase, fixedDigits_succ, ih (n / 10) (by omega) (by omega)]

theorem civil_monthDay (m : Int) : civil (monthDay m) = (m / 12, m % 12 + 1, 1) := by
  unfold monthDay
  rw [civil_makeDay, Int.zero_add]

theorem monthDay_mul_div (m : Int) : monthDay m * msPerDay / msPerDay = monthDay m :=
  Int.mul_ediv_cancel _ (by decide)

theorem monthName_toList (hm : 12000 ≤ m ∧ m < 120000) : (monthName m).toList =
    ['p', '_'] ++ (fixedDigits 4 (m / 12).toNat ++ ('_' :: fixedDigits 2 (m % 12 + 1).toNat)) := by
  obtain ⟨n, hn⟩ : ∃ n : Nat, m / 12 = n := ⟨(m / 12).toNat, by omega⟩
  have hyear : (toString (m / 12)).toList = fixedDigits 4 (m / 12).toNat := by
    rw [hn, Int.toNat_natCast, ← toDigits_fixedDigits n 3 (by omega) (by omega)]
    change (Nat.repr n).toList = _
    exact String.toList_ofList
  unfold monthName partitionNameFromBoundary year month
  rw [monthDay_mul_div, civil_monthDay]
  dsimp only
  rw [String.toList_append, String.toList_append, String.toList_append, hyear, String.toList_ofList,
    Int.sub_add_cancel]
  simp

theorem namedMonth_monthName (hm : 12000 ≤ m ∧ m < 120000) : namedMonth (monthName m).toList = true := by
  have hpair : ∀ n, fixedDigits 2 n = [Nat.digitChar (n / 10 % 10), Nat.digitChar (n % 10)] := by
    intro n
    simp [fixedDigits, List.range_succ]
  have hfour : ∀ n, fixedDigits 4 n = [Nat.digitChar (n / 10 / 10 / 10 % 10),
      Nat.digitChar (n / 10 / 10 % 10), Nat.digitChar (n / 10 % 10), Nat.digitChar (n % 10)] := by
    intro n
    rw [fixedDigits_succ, fixedDigits_succ, hpair]
    rfl
  have hdigit : ∀ n, (Nat.digitChar (n % 10)).isDigit = true := by
    intro n
    have hlt := Nat.mod_lt n (show 0 < 10 by decide)
    interval_cases n % 10 <;> rfl
  rw [monthName_toList hm, hpair, hfour]
  simp only [List.cons_append, List.nil_append, namedMonth, List.all_cons, List.all_nil, hdigit,
    Bool.and_self]

/-- The names are in the order of the months. -/
theorem le_of_textLe_monthName (ha : 12000 ≤ a ∧ a < 120000) (hb : 12000 ≤ b ∧ b < 120000)
    (h : textLe (monthName a).toList (monthName b).toList = true) : a ≤ b := by
  rw [monthName_toList ha, monthName_toList hb, textLe_append_left] at h
  rcases textLe_fixedDigits (by omega) (by omega) h with hyear | ⟨hyear, h⟩
  · omega
  · rw [textLe_cons] at h
    have hmonth := h.resolve_left (Nat.lt_irrefl _)
    rw [← List.append_nil (fixedDigits 2 (a % 12 + 1).toNat),
      ← List.append_nil (fixedDigits 2 (b % 12 + 1).toNat)] at hmonth
    rcases textLe_fixedDigits (by omega) (by omega) hmonth.2 with hlt | ⟨heq, -⟩ <;> omega

theorem IsMonth.le_of_textLe (hp : IsMonth p a) (hq : IsMonth q b)
    (h : textLe p.name.toList q.name.toList = true) : a ≤ b := by
  have ha := hp.four_digits
  have hb := hq.four_digits
  rw [hp.name, hq.name] at h
  exact le_of_textLe_monthName (by omega) (by omega) h

theorem monthName_inj (ha : 12000 ≤ a ∧ a < 120000) (hb : 12000 ≤ b ∧ b < 120000)
    (h : monthName a = monthName b) : a = b := by
  have hab := le_of_textLe_monthName ha hb (by rw [h]; exact textLe_refl _)
  have hba := le_of_textLe_monthName hb ha (by rw [h]; exact textLe_refl _)
  omega

theorem IsMonth.textLe_of_le (hp : IsMonth p a) (hq : IsMonth q b) (h : a ≤ b) :
    textLe p.name.toList q.name.toList = true := by
  rcases textLe_total p.name.toList q.name.toList with hle | hle
  · exact hle
  · have hba := hq.le_of_textLe hp hle
    have hab : a = b := by omega
    rw [hp.name, hq.name, hab]
    exact textLe_refl _

theorem monthDay_bounds (hm : 12000 ≤ m ∧ m < 120000) : -719162 ≤ monthDay m ∧ monthDay m ≤ 2932896 :=
  day_bounds (by rw [civil_monthDay]; dsimp only; omega)

theorem isMonth_of_bound {name : String} {description : String} (hm : 12000 ≤ m ∧ m < 119999)
    (hname : name = monthName m)
    (htext : description.toList = Char.ofNat 39 :: (dateText (monthDay (m + 1)) ++ [Char.ofNat 39])) :
    IsMonth ⟨name, description⟩ m := by
  refine ⟨hm, hname, ?_, ?_, Or.inr htext⟩
  · rw [civil_monthDay]
    dsimp only
    omega
  · rw [civil_monthDay]
    dsimp only
    omega

/-- The bound of a month's partition is the start of the next month. -/
theorem IsMonth.parsed (fallback : List Char → Option Int) (hp : IsMonth p m) :
    parsePartitionBoundary fallback p.description = some (monthDay (m + 1) * msPerDay) :=
  parse_dateBound fallback hp.bound

theorem monthDay_add (y m : Int) : monthDay (12 * y + m) = makeDay y m 1 := by
  have hyear : 0 + (12 * y + m) / 12 = y + m / 12 := by omega
  have hmonth : (12 * y + m) % 12 = m % 12 := by omega
  unfold monthDay makeDay
  rw [hyear, hmonth]

theorem addMonths_monthDay (m : Int) :
    addMonths (some (monthDay m * msPerDay)) 1 = timeClip (monthDay (m + 1) * msPerDay) := by
  unfold addMonths monthDay
  rw [Option.bind_some, setUTCMonth_month_start]

theorem year_monthDay (m : Int) : year (monthDay m * msPerDay) = m / 12 := by
  unfold year
  rw [monthDay_mul_div, civil_monthDay]

theorem year_of_nonneg {t : Int} (h : 0 ≤ t) : 1600 ≤ year t := by
  have hz : 0 ≤ t / msPerDay := Int.ediv_nonneg h (by decide)
  have hdoe : 0 ≤ (t / msPerDay + 719468) % 146097 ∧
      (t / msPerDay + 719468) % 146097 ≤ 146096 := by omega
  have hyoe := yearOfEra_bounds hdoe.1 hdoe.2
  unfold year
  rw [civil_eq]
  dsimp only
  split <;> omega

/-- A text of ten characters is the text of a year of four digits. -/
theorem isoDate_eq_dateText {t day : Int} (h : isoDate t = dateText day) :
    0 ≤ year t ∧ year t ≤ 9999 := by
  have hsign : ∀ k, k < 10 → Nat.digitChar k ≠ '+' ∧ Nat.digitChar k ≠ '-' := by decide
  obtain ⟨k, b, mid, hk, -, htext⟩ := dateText_ends day
  obtain ⟨hplus, hminus⟩ := hsign k hk
  unfold isoDate at h
  dsimp only at h
  by_cases hyear : 0 ≤ year t ∧ year t ≤ 9999
  · exact hyear
  · rw [if_neg hyear, htext] at h
    have hhead := (List.cons.inj h).1
    split at hhead
    · exact absurd hhead.symm hminus
    · exact absurd hhead.symm hplus

end Months

end Partition

end Vici2
