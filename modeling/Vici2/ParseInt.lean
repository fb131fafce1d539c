import Vici2.Picker

/-! The decimal text of an integer and `strconv.ParseInt`, which reads it back. -/

namespace Vici2

namespace Picker

def InInt64 (n : Int) : Prop := -(2 ^ 63) ≤ n ∧ n < 2 ^ 63

instance (n : Int) : Decidable (InInt64 n) := inferInstanceAs (Decidable (_ ∧ _))

theorem foldl_digits {l : List Char} (h : ∀ c ∈ l, c.isDigit = true) (a : Nat) :
    l.foldl (fun (n : Int) c => 10 * n + ((c.toNat : Int) - ('0'.toNat : Int))) (a : Int) =
      (Nat.ofDigitChars 10 l a : Nat) := by
  induction l generalizing a with
  | nil => rfl
  | cons c l ih =>
    have hc : 48 ≤ c.toNat := (Char.isDigit_iff_toNat.1 (h c List.mem_cons_self)).1
    have hcast : 10 * (a : Int) + ((c.toNat : Int) - ('0'.toNat : Int)) =
        ((10 * a + (c.toNat - 48) : Nat) : Int) := by
      have h0 : '0'.toNat = 48 := rfl
      rw [h0]
      omega
    rw [List.foldl_cons, hcast, ih (fun c hc => h c (List.mem_cons_of_mem _ hc)),
      Nat.ofDigitChars_cons]
    rfl

section Digits

variable {l : List Char} (hne : l ≠ []) (h : ∀ c ∈ l, c.isDigit = true)

include hne h

theorem parseInt64_digits :
    parseInt64 l = (some ((Nat.ofDigitChars 10 l 0 : Nat) : Int)).filter fun n => InInt64 n := by
  have hall : l.all Char.isDigit = true := List.all_eq_true.2 h
  have hsign : ∀ c : Char, c.isDigit = false → ∀ rest, l ≠ c :: rest := by
    intro c hc rest heq
    have hmem := h c (by rw [heq]; exact List.mem_cons_self)
    rw [hc] at hmem
    exact Bool.noConfusion hmem
  unfold parseInt64
  split
  · next rest => exact absurd rfl (hsign '-' (by decide) rest)
  · next rest => exact absurd rfl (hsign '+' (by decide) rest)
  · dsimp only
    rw [if_pos ⟨hne, hall⟩, show (0 : Int) = ((0 : Nat) : Int) from rfl, foldl_digits h 0]
    rfl

theorem parseInt64_neg_digits :
    parseInt64 ('-' :: l) =
      (some (-((Nat.ofDigitChars 10 l 0 : Nat) : Int))).filter fun n => InInt64 n := by
  have hall : l.all Char.isDigit = true := List.all_eq_true.2 h
  unfold parseInt64
  split
  · next rest heq =>
    obtain rfl : l = rest := (List.cons.inj heq).2
    dsimp only
    rw [if_pos ⟨hne, hall⟩, show (0 : Int) = ((0 : Nat) : Int) from rfl, foldl_digits h 0]
    rfl
  · next rest heq => exact absurd (List.cons.inj heq).1 (by decide)
  · next hminus _ => exact absurd rfl (hminus l)

end Digits

theorem isDigit_of_mem_text (n : Nat) : ∀ c ∈ Nat.toDigits 10 n, c.isDigit = true :=
  fun _ hc => Nat.isDigit_of_mem_toDigits (by omega) (by omega) hc

/-- The text of an integer is read back if it fits in 64 bits, and not at all otherwise. -/
theorem parseInt64_text (n : Int) :
    parseInt64 (toString n).toList = (some n).filter fun n => InInt64 n := by
  cases n with
  | ofNat n =>
    have htext : (toString (Int.ofNat n)).toList = Nat.toDigits 10 n := by
      rw [show toString (Int.ofNat n) = n.repr from rfl, Nat.toList_repr]
    rw [htext, parseInt64_digits Nat.toDigits_ne_nil (isDigit_of_mem_text n),
      Nat.ofDigitChars_ten_toDigits]
    rfl
  | negSucc n =>
    have htext : (toString (Int.negSucc n)).toList = '-' :: Nat.toDigits 10 (n + 1) := by
      rw [show toString (Int.negSucc n) = "-" ++ (n + 1).repr from rfl, String.toList_append,
        Nat.toList_repr]
      rfl
    rw [htext, parseInt64_neg_digits Nat.toDigits_ne_nil (isDigit_of_mem_text (n + 1)),
      Nat.ofDigitChars_ten_toDigits]
    rfl

theorem parseInt64_eq_none {c : Char} (hc : c.isDigit = false) (hminus : c ≠ '-')
    (hplus : c ≠ '+') {l : List Char} (h : c ∈ l) : parseInt64 l = none := by
  have hdigits : ∀ r : List Char, c ∈ r → ¬ (r ≠ [] ∧ r.all Char.isDigit) := by
    rintro r hr ⟨-, hall⟩
    have hdigit := List.all_eq_true.1 hall c hr
    rw [hc] at hdigit
    exact Bool.noConfusion hdigit
  unfold parseInt64
  split
  · next rest =>
    dsimp only
    rw [if_neg (hdigits rest ((List.mem_cons.1 h).resolve_left hminus))]
    rfl
  · next rest =>
    dsimp only
    rw [if_neg (hdigits rest ((List.mem_cons.1 h).resolve_left hplus))]
    rfl
  · dsimp only
    rw [if_neg (hdigits _ h)]
    rfl

end Picker

end Vici2
