import Mathlib.Data.List.Basic

/-! Texts put together from parts. Parts joined by a separator that none of them
contains are recovered from the text, and so are the members of a bracketed
list whose texts show by themselves where they end. -/

namespace Vici2

namespace Delimited

variable {α ι : Type*}

def join (sep : α) : List (List α) → List α
  | [] => []
  | [t] => t
  | t :: u :: l => t ++ sep :: join sep (u :: l)

/-- The members that follow a first one, with the closing bracket. -/
def following (sep close : α) : List (List α) → List α
  | [] => [close]
  | t :: l => sep :: (t ++ following sep close l)

theorem join_append_close (sep close : α) (t : List α) (l : List (List α)) :
    join sep (t :: l) ++ [close] = t ++ following sep close l := by
  induction l generalizing t with
  | nil => rfl
  | cons u l ih =>
    have hstep : join sep (t :: u :: l) = t ++ sep :: join sep (u :: l) := rfl
    rw [hstep, List.append_assoc, List.cons_append, ih]
    rfl

theorem forall_mem_join {Q : α → Prop} {sep : α} (hsep : Q sep) {l : List (List α)}
    (h : ∀ t ∈ l, ∀ c ∈ t, Q c) : ∀ c ∈ join sep l, Q c := by
  induction l using join.induct with
  | case1 => simp [join]
  | case2 t => exact h t List.mem_cons_self
  | case3 t u l ih =>
    intro c hc
    rw [join, List.mem_append, List.mem_cons] at hc
    rcases hc with hc | rfl | hc
    · exact h t List.mem_cons_self c hc
    · exact hsep
    · exact ih (fun v hv => h v (List.mem_cons_of_mem _ hv)) c hc

theorem append_sep_inj {sep : α} {a b x y : List α} (ha : sep ∉ a) (hb : sep ∉ b)
    (h : a ++ sep :: x = b ++ sep :: y) : a = b ∧ x = y := by
  induction a generalizing b with
  | nil =>
    cases b with
    | nil => exact ⟨rfl, (List.cons.inj h).2⟩
    | cons c b =>
      have hc : sep = c := (List.cons.inj h).1
      exact absurd (hc ▸ List.mem_cons_self) hb
  | cons d a ih =>
    cases b with
    | nil =>
      have hd : d = sep := (List.cons.inj h).1
      exact absurd (hd ▸ List.mem_cons_self) ha
    | cons c b =>
      obtain ⟨rfl, htail⟩ := List.cons.inj h
      obtain ⟨rfl, hxy⟩ := ih (fun hm => ha (List.mem_cons_of_mem _ hm))
        (fun hm => hb (List.mem_cons_of_mem _ hm)) htail
      exact ⟨rfl, hxy⟩

/-- The last field is found from the end, whatever the fields before it contain. -/
theorem append_sep_inj_right {sep : α} {a b x y : List α} (hx : sep ∉ x) (hy : sep ∉ y)
    (h : a ++ sep :: x = b ++ sep :: y) : a = b ∧ x = y := by
  have hrev : x.reverse ++ sep :: a.reverse = y.reverse ++ sep :: b.reverse := by
    have hr := congrArg List.reverse h
    simpa using hr
  obtain ⟨hxy, hab⟩ := append_sep_inj (fun hm => hx (List.mem_reverse.1 hm))
    (fun hm => hy (List.mem_reverse.1 hm)) hrev
  exact ⟨List.reverse_injective hab, List.reverse_injective hxy⟩

/-- As many fields, none of which contains the separator. -/
theorem join_inj {sep : α} {l l' : List (List α)} (hlen : l.length = l'.length)
    (hl : ∀ t ∈ l, sep ∉ t) (hl' : ∀ t ∈ l', sep ∉ t) (h : join sep l = join sep l') : l = l' := by
  induction l generalizing l' with
  | nil => exact (List.length_eq_zero_iff.1 hlen.symm).symm
  | cons t l ih =>
    cases l' with
    | nil => simp at hlen
    | cons t' l' =>
      match l, l', hlen with
      | [], [], _ => exact congrArg (fun u => [u]) h
      | u :: l, u' :: l', hlen =>
        obtain ⟨rfl, hrest⟩ :=
          append_sep_inj (hl t List.mem_cons_self) (hl' t' List.mem_cons_self) h
        have htail := ih (Nat.succ.inj hlen) (fun v hv => hl v (List.mem_cons_of_mem _ hv))
          (fun v hv => hl' v (List.mem_cons_of_mem _ hv)) hrest
        rw [htail]

/-- A run of elements of one kind, up to an element of another. -/
theorem append_run_inj {P : α → Prop} {a b x y : List α} (ha : ∀ c ∈ a, P c) (hb : ∀ c ∈ b, P c)
    (hx : ∀ c ∈ x.head?, ¬P c) (hy : ∀ c ∈ y.head?, ¬P c) (h : a ++ x = b ++ y) :
    a = b ∧ x = y := by
  induction a generalizing b with
  | nil =>
    cases b with
    | nil => exact ⟨rfl, h⟩
    | cons c b =>
      have hhead : x.head? = some c := by
        rw [List.nil_append] at h
        rw [h]
        rfl
      exact absurd (hb c List.mem_cons_self) (hx c hhead)
  | cons d a ih =>
    cases b with
    | nil =>
      have hhead : y.head? = some d := by
        rw [List.nil_append] at h
        rw [← h]
        rfl
      exact absurd (ha d List.mem_cons_self) (hy d hhead)
    | cons c b =>
      obtain ⟨rfl, htail⟩ := List.cons.inj h
      obtain ⟨rfl, hxy⟩ := ih (fun e he => ha e (List.mem_cons_of_mem _ he))
        (fun e he => hb e (List.mem_cons_of_mem _ he)) htail
      exact ⟨rfl, hxy⟩

section Members

variable {text : ι → List α} {Ends : List α → Prop} {sep close : α}

/-- A text of `ms` shows where it ends, against the texts of `ns`. -/
def Cancels (text : ι → List α) (Ends : List α → Prop) (m n : ι) : Prop :=
  ∀ x y, Ends x → Ends y → text m ++ x = text n ++ y → m = n ∧ x = y

theorem ends_following (hsep : ∀ x, Ends (sep :: x)) (hclose : ∀ x, Ends (close :: x))
    (l : List (List α)) (x : List α) : Ends (following sep close l ++ x) := by
  cases l with
  | nil => exact hclose x
  | cons t l => exact hsep _

theorem following_inj (hne : sep ≠ close) (hsep : ∀ x, Ends (sep :: x))
    (hclose : ∀ x, Ends (close :: x)) {ms ns : List ι}
    (hcancel : ∀ m ∈ ms, ∀ n ∈ ns, Cancels text Ends m n) {x y : List α}
    (h : following sep close (ms.map text) ++ x = following sep close (ns.map text) ++ y) :
    ms = ns ∧ x = y := by
  induction ms generalizing ns with
  | nil =>
    cases ns with
    | nil => exact ⟨rfl, (List.cons.inj h).2⟩
    | cons n ns =>
      have hhead : close = sep := (List.cons.inj h).1
      exact absurd hhead.symm hne
  | cons m ms ih =>
    cases ns with
    | nil =>
      have hhead : sep = close := (List.cons.inj h).1
      exact absurd hhead hne
    | cons n ns =>
      have htail : text m ++ following sep close (ms.map text) ++ x =
          text n ++ following sep close (ns.map text) ++ y := (List.cons.inj h).2
      rw [List.append_assoc, List.append_assoc] at htail
      obtain ⟨rfl, hrest⟩ := hcancel m List.mem_cons_self n List.mem_cons_self _ _
        (ends_following hsep hclose _ x) (ends_following hsep hclose _ y) htail
      obtain ⟨rfl, hxy⟩ := ih (fun a ha b hb =>
        hcancel a (List.mem_cons_of_mem _ ha) b (List.mem_cons_of_mem _ hb)) hrest
      exact ⟨rfl, hxy⟩

/-- Members that show where they end and do not begin with the closing bracket. -/
theorem members_inj (hne : sep ≠ close) (hsep : ∀ x, Ends (sep :: x))
    (hclose : ∀ x, Ends (close :: x)) {ms ns : List ι}
    (hcancel : ∀ m ∈ ms, ∀ n ∈ ns, Cancels text Ends m n)
    (hms : ∀ m ∈ ms, ∃ c t, text m = c :: t ∧ c ≠ close)
    (hns : ∀ n ∈ ns, ∃ c t, text n = c :: t ∧ c ≠ close) {x y : List α}
    (h : join sep (ms.map text) ++ [close] ++ x = join sep (ns.map text) ++ [close] ++ y) :
    ms = ns ∧ x = y := by
  cases ms with
  | nil =>
    cases ns with
    | nil => exact ⟨rfl, (List.cons.inj h).2⟩
    | cons n ns =>
      obtain ⟨c, t, htext, hc⟩ := hns n List.mem_cons_self
      rw [List.map_cons, join_append_close, htext] at h
      exact absurd (List.cons.inj h).1.symm hc
  | cons m ms =>
    cases ns with
    | nil =>
      obtain ⟨c, t, htext, hc⟩ := hms m List.mem_cons_self
      rw [List.map_cons, join_append_close, htext] at h
      exact absurd (List.cons.inj h).1 hc
    | cons n ns =>
      rw [List.map_cons, List.map_cons, join_append_close, join_append_close, List.append_assoc,
        List.append_assoc] at h
      obtain ⟨rfl, hrest⟩ := hcancel m List.mem_cons_self n List.mem_cons_self _ _
        (ends_following hsep hclose _ x) (ends_following hsep hclose _ y) h
      obtain ⟨rfl, hxy⟩ := following_inj hne hsep hclose (fun a ha b hb =>
        hcancel a (List.mem_cons_of_mem _ ha) b (List.mem_cons_of_mem _ hb)) hrest
      exact ⟨rfl, hxy⟩

end Members

section Split

variable [DecidableEq α] {sep : α}

/-- Joined parts are split one after the other, whether they contain the separator or not. -/
theorem splitOn_intercalate_eq_flatMap {l : List (List α)} (hl : l ≠ []) :
    ([sep].intercalate l).splitOn sep = l.flatMap fun t => t.splitOn sep := by
  induction l with
  | nil => exact absurd rfl hl
  | cons t l ih =>
    cases l with
    | nil => simp
    | cons u l =>
      have hcons : [sep].intercalate (t :: u :: l) = t ++ sep :: [sep].intercalate (u :: l) := by
        simp [List.intercalate_cons_cons]
      rw [hcons, List.splitOn_append_cons_self, ih (List.cons_ne_nil u l)]
      simp only [List.flatMap_cons]

theorem not_mem_of_mem_splitOn {s t : List α} (ht : t ∈ s.splitOn sep) : sep ∉ t := by
  induction s generalizing t with
  | nil =>
    rw [List.splitOn_nil, List.mem_singleton] at ht
    simp [ht]
  | cons c s ih =>
    rw [List.splitOn_cons_eq_if_modifyHead] at ht
    obtain ⟨u, us, hus⟩ := List.exists_cons_of_ne_nil (List.splitOn_ne_nil sep s)
    rw [hus] at ht ih
    by_cases hc : c = sep
    · rw [if_pos (by simp [hc])] at ht
      rcases List.mem_cons.1 ht with rfl | ht
      · simp
      · exact ih ht
    · rw [if_neg (by simp [hc]), List.modifyHead_cons] at ht
      rcases List.mem_cons.1 ht with rfl | ht
      · have hu := ih (t := u) List.mem_cons_self
        simp [hu, Ne.symm hc]
      · exact ih (List.mem_cons_of_mem _ ht)

omit [DecidableEq α] in
theorem mem_intercalate_iff {c : α} (hc : c ≠ sep) {l : List (List α)} :
    c ∈ [sep].intercalate l ↔ ∃ t ∈ l, c ∈ t := by
  induction l with
  | nil => simp
  | cons t l ih =>
    cases l with
    | nil => simp
    | cons u l =>
      rw [List.intercalate_cons_cons, List.mem_append, List.mem_append, ih]
      simp [hc]

end Split

section Decimal

theorem toList_toString_int (i : Int) : (toString i).toList =
    if i < 0 then '-' :: Nat.toDigits 10 i.natAbs else Nat.toDigits 10 i.natAbs := by
  cases i with
  | ofNat n =>
    have hpos : ¬ (Int.ofNat n < 0) := Int.not_lt.2 (Int.natCast_nonneg n)
    rw [if_neg hpos]
    exact Nat.toList_repr
  | negSucc n =>
    rw [if_pos (Int.negSucc_lt_zero n)]
    show ("-" ++ n.succ.repr).toList = '-' :: Nat.toDigits 10 n.succ
    rw [String.toList_append, Nat.toList_repr]
    rfl

/-- The text of a number is made of digits and a sign. -/
theorem mem_toString_int {i : Int} {c : Char} (h : c ∈ (toString i).toList) :
    c = '-' ∨ c.isDigit = true := by
  have hdigit : ∀ n : Nat, c ∈ Nat.toDigits 10 n → c.isDigit = true := fun n hc =>
    Nat.isDigit_of_mem_toDigits (by decide) (by decide) hc
  rw [toList_toString_int] at h
  split_ifs at h with hneg
  · rcases List.mem_cons.1 h with hsign | hc
    · exact Or.inl hsign
    · exact Or.inr (hdigit _ hc)
  · exact Or.inr (hdigit _ h)

theorem colon_not_mem_toString_int (i : Int) : ':' ∉ (toString i).toList := by
  intro hmem
  rcases mem_toString_int hmem with hsign | hdigit
  · cases hsign
  · exact absurd hdigit (by decide)

theorem toDigits_inj {m n : Nat} (h : Nat.toDigits 10 m = Nat.toDigits 10 n) : m = n := by
  have hm := Nat.ofDigitChars_ten_toDigits (n := m)
  rw [h, Nat.ofDigitChars_ten_toDigits] at hm
  exact hm.symm

/-- Zeros before its digits do not change a number. -/
theorem padded_inj {k k' m n : Nat}
    (h : List.replicate k '0' ++ Nat.toDigits 10 m = List.replicate k' '0' ++ Nat.toDigits 10 n) :
    m = n := by
  have hvalue := congrArg (fun t => Nat.ofDigitChars 10 t 0) h
  rw [Nat.ofDigitChars_append, Nat.ofDigitChars_append, Nat.ofDigitChars_replicate_zero,
    Nat.ofDigitChars_replicate_zero, Nat.mul_zero, Nat.mul_zero, Nat.ofDigitChars_ten_toDigits,
    Nat.ofDigitChars_ten_toDigits] at hvalue
  exact hvalue

theorem isDigit_of_mem_padded {k n : Nat} {c : Char}
    (h : c ∈ List.replicate k '0' ++ Nat.toDigits 10 n) : c.isDigit = true := by
  rcases List.mem_append.1 h with hzero | hdigit
  · rw [List.eq_of_mem_replicate hzero]
    rfl
  · exact Nat.isDigit_of_mem_toDigits (by decide) (by decide) hdigit

theorem natRepr_inj {m n : Nat} (h : m.repr = n.repr) : m = n := by
  have hlist := congrArg String.toList h
  rw [Nat.toList_repr, Nat.toList_repr] at hlist
  exact toDigits_inj hlist

theorem toString_int_inj {i j : Int} (h : toString i = toString j) : i = j := by
  have hsign : ∀ n : Nat, '-' ∉ Nat.toDigits 10 n := by
    intro n hmem
    have hdigit := Nat.isDigit_of_mem_toDigits (by decide) (by decide) hmem
    exact absurd hdigit (by decide)
  have hlist := congrArg String.toList h
  rw [toList_toString_int, toList_toString_int] at hlist
  split_ifs at hlist with hi hj hj
  · have habs := toDigits_inj (List.cons.inj hlist).2
    omega
  · exact absurd (hlist ▸ List.mem_cons_self) (hsign _)
  · exact absurd (hlist ▸ List.mem_cons_self) (hsign _)
  · have habs := toDigits_inj hlist
    omega

end Decimal

end Delimited

end Vici2
