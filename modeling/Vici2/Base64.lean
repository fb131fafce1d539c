import Mathlib.Data.List.Basic
import Mathlib.Tactic.IntervalCases
import Vici2.Sha256

/-! Base64 texts of byte lists. Three bytes are four digits of six bits. -/

namespace Vici2

namespace Base64

def alphabet : List Char :=
  "ABCDEFGHIJKLMNOPQRSTUVWXYZabcdefghijklmnopqrstuvwxyz0123456789+/".toList

def digit (n : Nat) : Char := alphabet.getD n 'A'

/-- The two digits that the alphabet for file names has of its own are read as well. -/
def value (c : Char) : Option Nat :=
  if 'A' ≤ c ∧ c ≤ 'Z' then some (c.toNat - 65)
  else if 'a' ≤ c ∧ c ≤ 'z' then some (c.toNat - 71)
  else if '0' ≤ c ∧ c ≤ '9' then some (c.toNat + 4)
  else if c = '+' ∨ c = '-' then some 62
  else if c = '/' ∨ c = '_' then some 63
  else none

def sextets : Bytes → List Nat
  | a :: b :: c :: rest =>
    a.toNat / 4 :: (a.toNat % 4 * 16 + b.toNat / 16) :: (b.toNat % 16 * 4 + c.toNat / 64) ::
      c.toNat % 64 :: sextets rest
  | [a, b] => [a.toNat / 4, a.toNat % 4 * 16 + b.toNat / 16, b.toNat % 16 * 4]
  | [a] => [a.toNat / 4, a.toNat % 4 * 16]
  | [] => []

def padding (b : Bytes) : List Char := List.replicate ((3 - b.length % 3) % 3) '='

def encode (b : Bytes) : String := String.ofList ((sextets b).map digit ++ padding b)

def ofSextets : List Nat → Bytes
  | p :: q :: r :: s :: rest =>
    UInt8.ofNat (p * 4 + q / 16) :: UInt8.ofNat (q % 16 * 16 + r / 4) ::
      UInt8.ofNat (r % 4 * 64 + s) :: ofSextets rest
  | [p, q, r] => [UInt8.ofNat (p * 4 + q / 16), UInt8.ofNat (q % 16 * 16 + r / 4)]
  | [p, q] => [UInt8.ofNat (p * 4 + q / 16)]
  | _ => []

/-- Characters that are no digits are passed over; the padding ends the text. -/
def decode (s : String) : Bytes :=
  ofSextets ((s.toList.takeWhile fun c => c ≠ '=').filterMap value)

theorem value_digit {n : Nat} (h : n < 64) : value (digit n) = some n := by
  interval_cases n <;> decide

theorem digit_ne_padding {n : Nat} (h : n < 64) : digit n ≠ '=' := by
  interval_cases n <;> decide

theorem sextets_lt (b : Bytes) : ∀ n ∈ sextets b, n < 64 := by
  induction b using sextets.induct with
  | case1 a b c rest ih =>
    have ha := a.toNat_lt
    have hb := b.toNat_lt
    have hc := c.toNat_lt
    intro n hn
    simp only [sextets, List.mem_cons] at hn
    rcases hn with rfl | rfl | rfl | rfl | hn
    · omega
    · omega
    · omega
    · omega
    · exact ih n hn
  | case2 a b =>
    have ha := a.toNat_lt
    have hb := b.toNat_lt
    intro n hn
    simp only [sextets, List.mem_cons, List.not_mem_nil, or_false] at hn
    omega
  | case3 a =>
    have ha := a.toNat_lt
    intro n hn
    simp only [sextets, List.mem_cons, List.not_mem_nil, or_false] at hn
    omega
  | case4 => simp [sextets]

theorem ofNat_eq {n : Nat} {a : UInt8} (h : n = a.toNat) : UInt8.ofNat n = a := by
  rw [h, UInt8.ofNat_toNat]

theorem ofSextets_sextets (b : Bytes) : ofSextets (sextets b) = b := by
  induction b using sextets.induct with
  | case1 a b c rest ih =>
    have hb := b.toNat_lt
    have hc := c.toNat_lt
    have h1 := ofNat_eq (a := a)
      (show a.toNat / 4 * 4 + (a.toNat % 4 * 16 + b.toNat / 16) / 16 = a.toNat by omega)
    have h2 := ofNat_eq (a := b)
      (show (a.toNat % 4 * 16 + b.toNat / 16) % 16 * 16 +
        (b.toNat % 16 * 4 + c.toNat / 64) / 4 = b.toNat by omega)
    have h3 := ofNat_eq (a := c)
      (show (b.toNat % 16 * 4 + c.toNat / 64) % 4 * 64 + c.toNat % 64 = c.toNat by omega)
    simp only [sextets, ofSextets, h1, h2, h3, ih]
  | case2 a b =>
    have hb := b.toNat_lt
    have h1 := ofNat_eq (a := a)
      (show a.toNat / 4 * 4 + (a.toNat % 4 * 16 + b.toNat / 16) / 16 = a.toNat by omega)
    have h2 := ofNat_eq (a := b)
      (show (a.toNat % 4 * 16 + b.toNat / 16) % 16 * 16 + b.toNat % 16 * 4 / 4 = b.toNat by omega)
    simp only [sextets, ofSextets, h1, h2]
  | case3 a =>
    have h1 := ofNat_eq (a := a)
      (show a.toNat / 4 * 4 + a.toNat % 4 * 16 / 16 = a.toNat by omega)
    simp only [sextets, ofSextets, h1]
  | case4 => rfl

theorem filterMap_digits {l : List Nat} (h : ∀ n ∈ l, n < 64) :
    (l.map digit).filterMap value = l := by
  induction l with
  | nil => rfl
  | cons n l ih =>
    have hn := value_digit (h n List.mem_cons_self)
    have hl := ih fun m hm => h m (List.mem_cons_of_mem _ hm)
    simp [hn, hl]

/-- What was encoded is decoded. -/
theorem decode_encode (b : Bytes) : decode (encode b) = b := by
  have hlt := sextets_lt b
  have hdigits : ∀ c ∈ (sextets b).map digit, decide (c ≠ '=') = true := by
    intro c hc
    obtain ⟨n, hn, rfl⟩ := List.mem_map.1 hc
    exact decide_eq_true (digit_ne_padding (hlt n hn))
  have hpadding : (padding b).takeWhile (fun c => c ≠ '=') = [] := by
    unfold padding
    cases (3 - b.length % 3) % 3 with
    | zero => rfl
    | succ n => simp [List.replicate_succ]
  have htake : ((sextets b).map digit ++ padding b).takeWhile (fun c => c ≠ '=') =
      (sextets b).map digit := by
    rw [List.takeWhile_append_of_pos hdigits, hpadding, List.append_nil]
  rw [decode, encode, String.toList_ofList, htake, filterMap_digits hlt, ofSextets_sextets]

end Base64

end Vici2
