import Mathlib.Algebra.Order.Floor.Ring
import Mathlib.Data.Rat.Floor
import Mathlib.Tactic.Linarith
import Mathlib.Tactic.NormNum
import Mathlib.Tactic.Positivity
import Mathlib.Tactic.Ring

/-! The delay before the supervisor of a FreeSWITCH host dials again, in nanoseconds. The
exponential is a rational that is converted to an `int64` before it is capped. -/

namespace Vici2

namespace Esl

/-- `time.Duration(x)` for a float on amd64: toward zero, and the least value where the
result does not fit. -/
def toDuration (x : ℚ) : Int :=
  let t := if 0 ≤ x then ⌊x⌋ else ⌈x⌉
  if -2 ^ 63 ≤ t ∧ t < 2 ^ 63 then t else -2 ^ 63

structure ReconnectOptions where
  initial : Int
  max : Int
  pos : 0 < initial
  le : initial ≤ max
  fits : max < 2 ^ 63

structure RandFloat where
  value : ℚ
  nonneg : 0 ≤ value
  lt_one : value < 1

def RandFloat.jitter (r : RandFloat) : ℚ := r.value * (1 / 2) - 1 / 4

namespace ReconnectOptions

/-- The capped exponential, before the jitter. -/
def backoff (o : ReconnectOptions) (attempt : Int) : Int :=
  let attempt := if attempt ≤ 0 then 1 else attempt
  let exp : ℚ := 2 ^ (attempt - 1).toNat
  let d := toDuration (o.initial * exp)
  if d > o.max then o.max else d

def reconnectDelay (o : ReconnectOptions) (attempt : Int) (jitter : ℚ) : Int :=
  let d := toDuration (o.backoff attempt * (1 + jitter))
  if d < 0 then o.initial else d

def unjittered (o : ReconnectOptions) (attempt : Int) : Int := o.reconnectDelay attempt 0

/-- The delay lies between 0.75 of the initial and 1.25 of the maximum delay. -/
def InRange (o : ReconnectOptions) (n : Nat) (r : RandFloat) : Prop :=
  3 / 4 * (o.initial : ℚ) ≤ o.reconnectDelay n r.jitter ∧
    (o.reconnectDelay n r.jitter : ℚ) ≤ 5 / 4 * o.max

/-- The unjittered delay has not decreased on the way to the attempt `n`. -/
def NeverDecreased (o : ReconnectOptions) (n : Nat) : Prop :=
  ∀ m : Nat, m ≤ n → o.unjittered m ≤ o.unjittered n

/-- The exponential of the attempt `n` is an `int64`. -/
def Fits (o : ReconnectOptions) (n : Nat) : Prop := o.initial * 2 ^ (n - 1) < 2 ^ 63

end ReconnectOptions

theorem toDuration_of_nonneg {x : ℚ} (hx : 0 ≤ x) :
    toDuration x = if x < 2 ^ 63 then ⌊x⌋ else -2 ^ 63 := by
  have hfloor : 0 ≤ ⌊x⌋ := Int.floor_nonneg.2 hx
  have hlow : (-2 ^ 63 : Int) ≤ ⌊x⌋ := by omega
  have hiff : ⌊x⌋ < 2 ^ 63 ↔ x < 2 ^ 63 := by
    rw [Int.floor_lt]
    norm_num
  simp only [toDuration, if_pos hx, hlow, true_and, hiff]

theorem toDuration_neg {x : ℚ} (hx : x ≤ -1) : toDuration x < 0 := by
  have hneg : ¬ 0 ≤ x := by linarith
  have hceil : ⌈x⌉ ≤ -1 := Int.ceil_le.2 (by simpa using hx)
  simp only [toDuration, if_neg hneg]
  split <;> omega

theorem RandFloat.jitter_bounds (r : RandFloat) : -(1 / 4) ≤ r.jitter ∧ r.jitter < 1 / 4 := by
  have hnonneg := r.nonneg
  have hlt := r.lt_one
  constructor
  · rw [jitter]
    linarith
  · rw [jitter]
    linarith

namespace ReconnectOptions

variable {o : ReconnectOptions} {n : Nat}

theorem exponent (n : Nat) : ((if (n : Int) ≤ 0 then 1 else (n : Int)) - 1).toNat = n - 1 := by
  split <;> omega

theorem backoff_eq (o : ReconnectOptions) (n : Nat) :
    o.backoff n = if o.initial * 2 ^ (n - 1) < 2 ^ 63 then min (o.initial * 2 ^ (n - 1)) o.max
      else -2 ^ 63 := by
  have hpos : 0 < o.initial * 2 ^ (n - 1) := Int.mul_pos o.pos (by positivity)
  have hcast : (o.initial : ℚ) * 2 ^ (n - 1) = ((o.initial * 2 ^ (n - 1) : Int) : ℚ) := by
    push_cast
    rfl
  have hmax := o.fits
  have hle := o.le
  have hinitial := o.pos
  have hd : toDuration (o.initial * 2 ^ (n - 1)) =
      if o.initial * 2 ^ (n - 1) < 2 ^ 63 then o.initial * 2 ^ (n - 1) else -2 ^ 63 := by
    rw [hcast, toDuration_of_nonneg (by exact_mod_cast hpos.le), Int.floor_intCast]
    norm_cast
  simp only [backoff, exponent, hd]
  split_ifs <;> omega

theorem backoff_of_fits (h : o.Fits n) : o.backoff n = min (o.initial * 2 ^ (n - 1)) o.max :=
  (backoff_eq o n).trans (if_pos h)

theorem backoff_of_not_fits (h : ¬ o.Fits n) : o.backoff n = -2 ^ 63 :=
  (backoff_eq o n).trans (if_neg h)

theorem initial_le_backoff (h : o.Fits n) : o.initial ≤ o.backoff n := by
  have hpow : (1 : Int) ≤ 2 ^ (n - 1) := one_le_pow₀ (by norm_num)
  have hmul : o.initial * 1 ≤ o.initial * 2 ^ (n - 1) :=
    Int.mul_le_mul_of_nonneg_left hpow o.pos.le
  rw [backoff_of_fits h]
  have hle := o.le
  omega

theorem backoff_le_max (h : o.Fits n) : o.backoff n ≤ o.max := by
  rw [backoff_of_fits h]
  exact min_le_right _ _

theorem reconnectDelay_of_fits (h : o.Fits n) {j : ℚ} (hj : -(1 / 4) ≤ j) :
    o.reconnectDelay n j =
      if (o.backoff n : ℚ) * (1 + j) < 2 ^ 63 then ⌊(o.backoff n : ℚ) * (1 + j)⌋
      else o.initial := by
  have hpos := o.pos
  have hb := initial_le_backoff h
  have hcast : (0 : ℚ) ≤ o.backoff n := by
    have hnonneg : 0 ≤ o.backoff n := by omega
    exact_mod_cast hnonneg
  have hx : 0 ≤ (o.backoff n : ℚ) * (1 + j) := mul_nonneg hcast (by linarith)
  have hfloor : 0 ≤ ⌊(o.backoff n : ℚ) * (1 + j)⌋ := Int.floor_nonneg.2 hx
  simp only [reconnectDelay, toDuration_of_nonneg hx]
  split_ifs <;> omega

theorem reconnectDelay_of_not_fits (h : ¬ o.Fits n) {j : ℚ} (hj : -(1 / 4) ≤ j) :
    o.reconnectDelay n j = o.initial := by
  have hneg : toDuration (((-2 ^ 63 : Int) : ℚ) * (1 + j)) < 0 := by
    apply toDuration_neg
    norm_num
    linarith
  simp only [reconnectDelay, backoff_of_not_fits h, if_pos hneg]

theorem unjittered_of_fits (h : o.Fits n) :
    o.unjittered n = min (o.initial * 2 ^ (n - 1)) o.max := by
  have hlt : o.backoff n < 2 ^ 63 := lt_of_le_of_lt (backoff_le_max h) o.fits
  have hlt' : (o.backoff n : ℚ) * (1 + 0) < 2 ^ 63 := by
    rw [add_zero, mul_one]
    exact_mod_cast hlt
  rw [unjittered, reconnectDelay_of_fits h (by norm_num), if_pos hlt', add_zero, mul_one,
    Int.floor_intCast, backoff_of_fits h]

theorem unjittered_of_not_fits (h : ¬ o.Fits n) : o.unjittered n = o.initial :=
  reconnectDelay_of_not_fits h (by norm_num)

theorem Fits.of_le (h : o.Fits n) {m : Nat} (hm : m ≤ n) : o.Fits m := by
  have hpow : (2 : Int) ^ (m - 1) ≤ 2 ^ (n - 1) :=
    pow_le_pow_right₀ (by norm_num) (by omega)
  have hmul := Int.mul_le_mul_of_nonneg_left hpow o.pos.le
  exact lt_of_le_of_lt hmul h

theorem initial_inRange (o : ReconnectOptions) :
    3 / 4 * (o.initial : ℚ) ≤ o.initial ∧ (o.initial : ℚ) ≤ 5 / 4 * o.max := by
  have hpos : (0 : ℚ) < o.initial := by exact_mod_cast o.pos
  have hle : (o.initial : ℚ) ≤ o.max := by exact_mod_cast o.le
  constructor
  · linarith
  · linarith

/-- The conversion to nanoseconds rounds down, so 0.75 of the initial delay is reached
only where its next whole nanosecond is. -/
theorem inRange_iff (o : ReconnectOptions) (n : Nat) (r : RandFloat) :
    o.InRange n r ↔
      (o.Fits n → (⌈3 / 4 * (o.initial : ℚ)⌉ : ℚ) ≤ o.backoff n * (1 + r.jitter)) := by
  obtain ⟨hlow, hhigh⟩ := r.jitter_bounds
  by_cases hfits : o.Fits n
  · have hmax : (o.backoff n : ℚ) ≤ o.max := by exact_mod_cast backoff_le_max hfits
    have hinitial : (o.initial : ℚ) ≤ o.backoff n := by exact_mod_cast initial_le_backoff hfits
    have hpos : (0 : ℚ) < o.initial := by exact_mod_cast o.pos
    have hdelay := reconnectDelay_of_fits hfits hlow
    by_cases hx : (o.backoff n : ℚ) * (1 + r.jitter) < 2 ^ 63
    · rw [if_pos hx] at hdelay
      rw [InRange, hdelay]
      have hupper : (⌊(o.backoff n : ℚ) * (1 + r.jitter)⌋ : ℚ) ≤ 5 / 4 * o.max := by
        have hfloor := Int.floor_le ((o.backoff n : ℚ) * (1 + r.jitter))
        have hmul : (o.backoff n : ℚ) * (1 + r.jitter) ≤ o.backoff n * (5 / 4) :=
          mul_le_mul_of_nonneg_left (by linarith) (by linarith)
        linarith
      have hlower : 3 / 4 * (o.initial : ℚ) ≤ ⌊(o.backoff n : ℚ) * (1 + r.jitter)⌋ ↔
          (⌈3 / 4 * (o.initial : ℚ)⌉ : ℚ) ≤ o.backoff n * (1 + r.jitter) := by
        rw [← Int.ceil_le, Int.le_floor]
      exact ⟨fun h _ => hlower.1 h.1, fun h => ⟨hlower.2 (h hfits), hupper⟩⟩
    · rw [if_neg hx] at hdelay
      rw [InRange, hdelay]
      have hceil : ⌈3 / 4 * (o.initial : ℚ)⌉ ≤ o.initial := Int.ceil_le.2 (by linarith)
      have hceil' : (⌈3 / 4 * (o.initial : ℚ)⌉ : ℚ) ≤ o.initial := by exact_mod_cast hceil
      have hlt : (o.initial : ℚ) < 2 ^ 63 := by exact_mod_cast lt_of_le_of_lt o.le o.fits
      exact ⟨fun _ _ => by linarith, fun _ => o.initial_inRange⟩
  · rw [InRange, reconnectDelay_of_not_fits hfits hlow]
    exact ⟨fun _ h => absurd h hfits, fun _ => o.initial_inRange⟩

/-- Past the overflow the unjittered delay is the initial one again. -/
theorem neverDecreased_iff (o : ReconnectOptions) (n : Nat) :
    o.NeverDecreased n ↔ (o.Fits n ∨ o.max = o.initial ∨ 2 ^ 62 ≤ o.initial) := by
  have hpos := o.pos
  have hle := o.le
  constructor
  · intro h
    by_contra hnot
    obtain ⟨hfits, hne, hsmall⟩ : ¬ o.Fits n ∧ o.max ≠ o.initial ∧ ¬ 2 ^ 62 ≤ o.initial := by
      simpa only [not_or] using hnot
    have htwo : o.Fits 2 := by
      have hdouble : o.initial * 2 ^ 1 < 2 ^ 63 := by omega
      exact hdouble
    have hn : 2 ≤ n := by
      by_contra hlt
      exact hfits (htwo.of_le (by omega))
    have hdecreased := h 2 hn
    have hsecond : o.unjittered (2 : Nat) = min (o.initial * 2 ^ 1) o.max := unjittered_of_fits htwo
    rw [unjittered_of_not_fits hfits, hsecond] at hdecreased
    omega
  · intro h m hm
    by_cases hfits : o.Fits n
    · rw [unjittered_of_fits hfits, unjittered_of_fits (hfits.of_le hm)]
      have hpow : (2 : Int) ^ (m - 1) ≤ 2 ^ (n - 1) :=
        pow_le_pow_right₀ (by norm_num) (by omega)
      have hmul := Int.mul_le_mul_of_nonneg_left hpow hpos.le
      omega
    · rw [unjittered_of_not_fits hfits]
      by_cases hm' : o.Fits m
      · rw [unjittered_of_fits hm']
        rcases h.resolve_left hfits with hmax | hlarge
        · omega
        · have hfirst : m - 1 = 0 := by
            by_contra hne
            have hpow : (2 : Int) ^ 1 ≤ 2 ^ (m - 1) :=
              pow_le_pow_right₀ (by norm_num) (by omega)
            have hmul := Int.mul_le_mul_of_nonneg_left hpow hpos.le
            have hlt : o.initial * 2 ^ (m - 1) < 2 ^ 63 := hm'
            omega
          rw [hfirst]
          omega
      · rw [unjittered_of_not_fits hm']

/-- While the exponential fits, the delay is right where the jitter leaves 0.75 of the
initial delay in whole nanoseconds; past that it has dropped to the initial delay, which is
right only where it never grew. -/
theorem reconnectDelay_right_iff (o : ReconnectOptions) (n : Nat) (r : RandFloat) :
    o.InRange n r ∧ o.NeverDecreased n ↔
      (o.initial * 2 ^ (n - 1) < 2 ^ 63 ∧
        (⌈3 / 4 * (o.initial : ℚ)⌉ : ℚ) ≤
          (min (o.initial * 2 ^ (n - 1)) o.max : Int) * (1 + r.jitter)) ∨
      (2 ^ 63 ≤ o.initial * 2 ^ (n - 1) ∧ (o.max = o.initial ∨ 2 ^ 62 ≤ o.initial)) := by
  rw [inRange_iff, neverDecreased_iff]
  by_cases hfits : o.Fits n
  · have hlt : o.initial * 2 ^ (n - 1) < 2 ^ 63 := hfits
    have hnot : ¬ 2 ^ 63 ≤ o.initial * 2 ^ (n - 1) := by omega
    rw [backoff_of_fits hfits]
    simp only [hfits, hlt, hnot, true_or, and_true, true_and, false_and, or_false,
      forall_const]
  · have hnot : ¬ o.initial * 2 ^ (n - 1) < 2 ^ 63 := hfits
    have hge : 2 ^ 63 ≤ o.initial * 2 ^ (n - 1) := by omega
    simp only [hfits, hnot, hge, false_or, true_and, false_and, false_implies]

/-- Where three quarters of the initial delay are whole nanoseconds, as for every delay in
milliseconds, the range holds for every attempt and jitter. -/
theorem inRange_of_dvd (h : 4 ∣ o.initial) (n : Nat) (r : RandFloat) : o.InRange n r := by
  rw [inRange_iff]
  intro hfits
  obtain ⟨k, hk⟩ := h
  obtain ⟨hlow, -⟩ := r.jitter_bounds
  have hinitial : (o.initial : ℚ) ≤ o.backoff n := by exact_mod_cast initial_le_backoff hfits
  have hpos : (0 : ℚ) < o.initial := by exact_mod_cast o.pos
  have hthree : 3 / 4 * (o.initial : ℚ) = ((3 * k : Int) : ℚ) := by
    rw [hk]
    push_cast
    ring
  have hmul : (o.backoff n : ℚ) * (3 / 4) ≤ o.backoff n * (1 + r.jitter) :=
    mul_le_mul_of_nonneg_left (by linarith) (by linarith)
  rw [hthree, Int.ceil_intCast, ← hthree]
  linarith

end ReconnectOptions

/-- The default delays, 300 ms and 30 s. -/
def defaultReconnect : ReconnectOptions where
  initial := 300000000
  max := 30000000000
  pos := by norm_num
  le := by norm_num
  fits := by norm_num

theorem defaultReconnect_drops : ¬ defaultReconnect.NeverDecreased 36 ∧
    defaultReconnect.unjittered 35 = 30000000000 ∧
    defaultReconnect.unjittered 36 = 300000000 := by
  have hbefore : defaultReconnect.unjittered (35 : Nat) = 30000000000 := by
    have hfits : defaultReconnect.Fits 35 := by
      have hlt : (300000000 : Int) * 2 ^ 34 < 2 ^ 63 := by norm_num
      exact hlt
    have hvalue : min ((300000000 : Int) * 2 ^ 34) 30000000000 = 30000000000 := by norm_num
    exact (ReconnectOptions.unjittered_of_fits hfits).trans hvalue
  have hafter : defaultReconnect.unjittered (36 : Nat) = 300000000 := by
    have hnot : ¬ defaultReconnect.Fits 36 := by
      have hge : ¬ (300000000 : Int) * 2 ^ 35 < 2 ^ 63 := by norm_num
      exact hge
    exact ReconnectOptions.unjittered_of_not_fits hnot
  refine ⟨fun h => ?_, hbefore, hafter⟩
  have hdecreased := h 35 (by omega)
  rw [hbefore, hafter] at hdecreased
  omega

end Esl

end Vici2
