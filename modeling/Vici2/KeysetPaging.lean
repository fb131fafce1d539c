import Mathlib.Data.List.Sort
import Mathlib.Order.Basic

/-! Pages of an ordered table, each asked for behind the last row of the page before. The
table may change between two pages, and a cursor may hold less than the row it is made of. -/

namespace Vici2

/-- The order of the rows, and what a cursor made of a row asks for. -/
structure Keyset (ρ γ κ : Type*) [LinearOrder κ] where
  ord : ρ → κ
  cursor : ρ → γ
  after : γ → ρ → Bool
  after_of_lt : ∀ {c x y}, ord x < ord y → after c x = true → after c y = true
  lt_of_after : ∀ {x y}, after (cursor x) y = true → ord x < ord y

namespace Keyset

variable {ρ γ κ : Type*} [LinearOrder κ] (K : Keyset ρ γ κ)

def Sorted (rows : List ρ) : Prop := rows.Pairwise fun a b => K.ord a < K.ord b

def fetch (c : Option γ) (rows : List ρ) : List ρ :=
  match c with
  | none => rows
  | some c => rows.filter (K.after c)

/-- One row more than the page is read. The second part is the row that the next page
begins behind. -/
def page (n : Nat) (c : Option γ) (rows : List ρ) : List ρ × Option ρ :=
  let fetched := (K.fetch c rows).take (n + 1)
  if n < fetched.length then (fetched.take n, (fetched.take n).getLast?) else (fetched, none)

/-- What was shown, the rows that ended a page before the last, and whether the last page
was reached. -/
structure Walk (ρ : Type*) where
  shown : List ρ
  ends : List ρ
  done : Bool

def walk (n : Nat) : Option γ → List (List ρ) → Walk ρ
  | _, [] => ⟨[], [], false⟩
  | c, rows :: tables =>
    match K.page n c rows with
    | (shown, none) => ⟨shown, [], true⟩
    | (shown, some x) =>
      let rest := walk n (some (K.cursor x)) tables
      ⟨shown ++ rest.shown, x :: rest.ends, rest.done⟩

variable {K} {n : Nat} {c : Option γ} {rows : List ρ} {tables : List (List ρ)}

theorem fetch_sublist : (K.fetch c rows).Sublist rows := by
  cases c with
  | none => exact List.Sublist.refl rows
  | some c => exact List.filter_sublist

theorem mem_fetch {r : ρ} :
    r ∈ K.fetch c rows ↔ r ∈ rows ∧ ∀ d, c = some d → K.after d r = true := by
  cases c with
  | none => simp [fetch]
  | some d => simp [fetch, List.mem_filter]

theorem page_last (h : (K.fetch c rows).length ≤ n) : K.page n c rows = (K.fetch c rows, none) := by
  have htake : (K.fetch c rows).take (n + 1) = K.fetch c rows := List.take_of_length_le (by omega)
  have hshort : ¬ n < (K.fetch c rows).length := by omega
  simp only [page, htake, if_neg hshort]

theorem page_next {A B : List ρ} {x : ρ} (h : K.fetch c rows = A ++ x :: B)
    (hn : A.length + 1 = n) (hB : B ≠ []) : K.page n c rows = (A ++ [x], some x) := by
  have hpos : 0 < B.length := List.length_pos_of_ne_nil hB
  have hlen : n < ((K.fetch c rows).take (n + 1)).length := by
    rw [h, List.length_take, List.length_append, List.length_cons]
    omega
  have htake : ((K.fetch c rows).take (n + 1)).take n = A ++ [x] := by
    rw [List.take_take, Nat.min_eq_left (Nat.le_succ n), h, List.append_cons,
      List.take_append_of_le_length (by simp [hn]), List.take_of_length_le (by simp [hn])]
  simp only [page, if_pos hlen, htake, List.getLast?_concat]

theorem getLast?_of_page {shown : List ρ} {x : ρ} (h : K.page n c rows = (shown, some x)) :
    shown.getLast? = some x := by
  unfold page at h
  dsimp only at h
  split_ifs at h
  · rw [Prod.mk.injEq] at h
    rw [← h.1, h.2]
  · cases h

theorem mem_of_page {shown : List ρ} {x : ρ} (h : K.page n c rows = (shown, some x)) :
    x ∈ rows := by
  have hlast := List.mem_of_getLast? (getLast?_of_page h)
  unfold page at h
  dsimp only at h
  split_ifs at h
  · rw [Prod.mk.injEq] at h
    rw [← h.1] at hlast
    exact fetch_sublist.subset (List.mem_of_mem_take (List.mem_of_mem_take hlast))
  · cases h

theorem fetch_cases (K : Keyset ρ γ κ) (c : Option γ) (rows : List ρ) (hn : 0 < n) :
    (K.fetch c rows).length ≤ n ∨
    ∃ A x B, K.fetch c rows = A ++ x :: B ∧ A.length + 1 = n ∧ B ≠ [] := by
  rcases Nat.lt_or_ge n (K.fetch c rows).length with hmany | hfew
  · right
    have hlast : n - 1 < (K.fetch c rows).length := by omega
    refine ⟨(K.fetch c rows).take (n - 1), (K.fetch c rows)[n - 1],
      (K.fetch c rows).drop (n - 1 + 1), ?_, ?_, ?_⟩
    · rw [← List.drop_eq_getElem_cons hlast, List.take_append_drop]
    · rw [List.length_take]
      omega
    · apply List.ne_nil_of_length_pos
      rw [List.length_drop]
      omega
  · exact Or.inl hfew

theorem walk_last (h : (K.fetch c rows).length ≤ n) :
    K.walk n c (rows :: tables) = ⟨K.fetch c rows, [], true⟩ := by
  rw [walk, page_last h]

theorem walk_next {A B : List ρ} {x : ρ} (h : K.fetch c rows = A ++ x :: B)
    (hn : A.length + 1 = n) (hB : B ≠ []) :
    K.walk n c (rows :: tables) =
      ⟨A ++ [x] ++ (K.walk n (some (K.cursor x)) tables).shown,
        x :: (K.walk n (some (K.cursor x)) tables).ends,
        (K.walk n (some (K.cursor x)) tables).done⟩ := by
  rw [walk, page_next h hn hB]

theorem fetched_sorted (h : K.Sorted rows) : K.Sorted (K.fetch c rows) :=
  List.Pairwise.sublist fetch_sublist h

theorem after_of_mem_shown (hn : 0 < n) {d : γ} {r : ρ}
    (h : r ∈ (K.walk n (some d) tables).shown) : K.after d r = true := by
  induction tables generalizing d with
  | nil => simp [walk] at h
  | cons rows tables ih =>
    have hfetch : ∀ y ∈ K.fetch (some d) rows, K.after d y = true :=
      fun y hy => (mem_fetch.1 hy).2 d rfl
    rcases fetch_cases K (some d) rows hn with hlast | ⟨A, x, B, hsplit, hA, hB⟩
    · rw [walk_last hlast] at h
      exact hfetch r h
    · rw [walk_next hsplit hA hB] at h
      have hx : K.after d x = true := hfetch x (by rw [hsplit]; simp)
      rcases List.mem_append.1 h with hpage | hrest
      · apply hfetch
        rw [hsplit, List.append_cons]
        exact List.mem_append_left B hpage
      · exact K.after_of_lt (K.lt_of_after (ih hrest)) hx

theorem mem_shown_of_mem_ends (hn : 0 < n) {x : ρ} (h : x ∈ (K.walk n c tables).ends) :
    x ∈ (K.walk n c tables).shown := by
  induction tables generalizing c with
  | nil => simp [walk] at h
  | cons rows tables ih =>
    rcases fetch_cases K c rows hn with hlast | ⟨A, y, B, hsplit, hA, hB⟩
    · rw [walk_last hlast] at h
      cases h
    · rw [walk_next hsplit hA hB] at h ⊢
      rcases List.mem_cons.1 h with rfl | hrest
      · simp
      · exact List.mem_append_right _ (ih hrest)

/-- The rows of a walk come in strict order, whatever becomes of the table between its
pages. -/
theorem shown_sorted (hn : 0 < n) (h : ∀ rows ∈ tables, K.Sorted rows) :
    K.Sorted (K.walk n c tables).shown := by
  induction tables generalizing c with
  | nil => exact List.Pairwise.nil
  | cons rows tables ih =>
    have hrows := fetched_sorted (c := c) (h rows List.mem_cons_self)
    rcases fetch_cases K c rows hn with hlast | ⟨A, x, B, hsplit, hA, hB⟩
    · rw [walk_last hlast]
      exact hrows
    · rw [walk_next hsplit hA hB]
      rw [hsplit, List.append_cons] at hrows
      unfold Sorted at hrows ⊢
      rw [List.pairwise_append] at hrows ⊢
      refine ⟨hrows.1, ih fun rows' hrows' => h rows' (List.mem_cons_of_mem rows hrows'), ?_⟩
      intro a ha b hb
      have hxb : K.ord x < K.ord b := K.lt_of_after (after_of_mem_shown hn hb)
      rcases List.mem_append.1 ha with ha | ha
      · exact lt_trans ((List.pairwise_append.1 hrows.1).2.2 a ha x (by simp)) hxb
      · rw [List.mem_singleton.1 ha]
        exact hxb

theorem mem_of_mem_shown (hn : 0 < n) {r : ρ} (h : r ∈ (K.walk n c tables).shown) :
    ∃ rows ∈ tables, r ∈ rows := by
  induction tables generalizing c with
  | nil => simp [walk] at h
  | cons rows tables ih =>
    have hfetch : ∀ y ∈ K.fetch c rows, ∃ rows' ∈ rows :: tables, y ∈ rows' :=
      fun y hy => ⟨rows, List.mem_cons_self, (mem_fetch.1 hy).1⟩
    rcases fetch_cases K c rows hn with hlast | ⟨A, x, B, hsplit, hA, hB⟩
    · rw [walk_last hlast] at h
      exact hfetch r h
    · rw [walk_next hsplit hA hB] at h
      rcases List.mem_append.1 h with hpage | hrest
      · apply hfetch
        rw [hsplit, List.append_cons]
        exact List.mem_append_left B hpage
      · obtain ⟨rows', hrows', hr⟩ := ih hrest
        exact ⟨rows', List.mem_cons_of_mem rows hrows', hr⟩

/-- What holds of the rows within each table, and from a table to the later ones, holds of the
rows that a walk shows. -/
theorem shown_pairwise {R : ρ → ρ → Prop} (hn : 0 < n)
    (hrows : ∀ rows ∈ tables, rows.Pairwise R)
    (hlater : tables.Pairwise fun rows rows' => ∀ a ∈ rows, ∀ b ∈ rows', R a b) :
    (K.walk n c tables).shown.Pairwise R := by
  induction tables generalizing c with
  | nil => exact List.Pairwise.nil
  | cons rows tables ih =>
    obtain ⟨hfirst, hlater⟩ := List.pairwise_cons.1 hlater
    have hfetched := (hrows rows List.mem_cons_self).sublist (fetch_sublist (K := K) (c := c))
    rcases fetch_cases K c rows hn with hlast | ⟨A, x, B, hsplit, hA, hB⟩
    · rw [walk_last hlast]
      exact hfetched
    · rw [walk_next hsplit hA hB]
      have hpage : (A ++ [x]).Sublist rows := by
        have hsub : (K.fetch c rows).Sublist rows := fetch_sublist
        rw [hsplit, List.append_cons] at hsub
        exact (List.sublist_append_left _ B).trans hsub
      refine List.pairwise_append.2 ⟨(hrows rows List.mem_cons_self).sublist hpage,
        ih (fun rows' hrows' => hrows rows' (List.mem_cons_of_mem rows hrows')) hlater, ?_⟩
      intro a ha b hb
      obtain ⟨rows', hrows', hb⟩ := mem_of_mem_shown hn hb
      exact hfirst rows' hrows' a (hpage.subset ha) b hb

/-- A row that stays in the table is shown by a walk that reaches the last page exactly
when the cursor of every page that ended before it asks for it. -/
theorem mem_shown_iff (hn : 0 < n) (hsorted : ∀ rows ∈ tables, K.Sorted rows) {r : ρ}
    (hr : ∀ rows ∈ tables, r ∈ rows) (hdone : (K.walk n c tables).done = true)
    (hc : ∀ d, c = some d → K.after d r = true) :
    r ∈ (K.walk n c tables).shown ↔
      ∀ x ∈ (K.walk n c tables).ends, K.ord x < K.ord r → K.after (K.cursor x) r = true := by
  induction tables generalizing c with
  | nil => simp [walk] at hdone
  | cons rows tables ih =>
    have hfetched : r ∈ K.fetch c rows := mem_fetch.2 ⟨hr rows List.mem_cons_self, hc⟩
    have hrows := fetched_sorted (c := c) (hsorted rows List.mem_cons_self)
    rcases fetch_cases K c rows hn with hlast | ⟨A, x, B, hsplit, hA, hB⟩
    · rw [walk_last hlast]
      simp [hfetched]
    · rw [walk_next hsplit hA hB] at hdone ⊢
      rw [hsplit, List.append_cons] at hrows hfetched
      have hcross := (List.pairwise_append.1 hrows).2.2
      have hpage := List.pairwise_append.1 (List.pairwise_append.1 hrows).1
      have hrest : ∀ y ∈ (K.walk n (some (K.cursor x)) tables).ends, K.ord x < K.ord y :=
        fun y hy => K.lt_of_after (after_of_mem_shown hn (mem_shown_of_mem_ends hn hy))
      rcases List.mem_append.1 hfetched with hshown | hbehind
      · -- the row is on this page, and every page ends at or behind it
        have hle : K.ord r ≤ K.ord x := by
          rcases List.mem_append.1 hshown with hr' | hr'
          · exact le_of_lt (hpage.2.2 r hr' x (by simp))
          · rw [List.mem_singleton.1 hr']
        constructor
        · intro _ y hy hlt
          rcases List.mem_cons.1 hy with rfl | hy
          · exact absurd hlt (not_lt_of_ge hle)
          · exact absurd (lt_trans (hrest y hy) hlt) (not_lt_of_ge hle)
        · intro _
          exact List.mem_append_left _ hshown
      · have hxr : K.ord x < K.ord r := hcross x (by simp) r hbehind
        have hnotpage : r ∉ A ++ [x] := fun hmem => lt_irrefl _ (hcross r hmem r hbehind)
        have ih' := fun hnext => @ih (some (K.cursor x))
          (fun rows' hrows' => hsorted rows' (List.mem_cons_of_mem rows hrows'))
          (fun rows' hrows' => hr rows' (List.mem_cons_of_mem rows hrows')) hdone hnext
        constructor
        · intro hmem
          have hlater := (List.mem_append.1 hmem).resolve_left hnotpage
          have hafter := after_of_mem_shown hn hlater
          intro y hy hlt
          rcases List.mem_cons.1 hy with rfl | hy
          · exact hafter
          · exact (ih' fun d hd => by cases hd; exact hafter).1 hlater y hy hlt
        · intro hall
          have hafter := hall x List.mem_cons_self hxr
          apply List.mem_append_right
          apply (ih' fun d hd => by cases hd; exact hafter).2
          intro y hy
          exact hall y (List.mem_cons_of_mem x hy)

theorem done_of_still (hn : 0 < n) {k : Nat} (hk : (K.fetch c rows).length < k) :
    (K.walk n c (List.replicate k rows)).done = true := by
  induction k generalizing c with
  | zero => omega
  | succ k ih =>
    rw [List.replicate_succ]
    rcases fetch_cases K c rows hn with hlast | ⟨A, x, B, hsplit, hA, hB⟩
    · rw [walk_last hlast]
    · rw [walk_next hsplit hA hB]
      apply ih
      have hx : x ∈ K.fetch c rows := by
        rw [hsplit]
        simp
      have hall : ∀ y ∈ K.fetch (some (K.cursor x)) rows, K.after (K.cursor x) y = true :=
        fun y hy => (mem_fetch.1 hy).2 _ rfl
      have hsub : (K.fetch (some (K.cursor x)) rows).Sublist (K.fetch c rows) := by
        cases c with
        | none => exact fetch_sublist
        | some d =>
          have hd : K.after d x = true := (mem_fetch.1 hx).2 d rfl
          apply List.monotone_filter_right
          intro y hy
          exact K.after_of_lt (K.lt_of_after hy) hd
      have hne : K.fetch (some (K.cursor x)) rows ≠ K.fetch c rows := by
        intro heq
        rw [← heq] at hx
        exact lt_irrefl _ (K.lt_of_after (hall x hx))
      have hlt : (K.fetch (some (K.cursor x)) rows).length < (K.fetch c rows).length := by
        by_contra hlong
        exact hne (hsub.eq_of_length_le (Nat.not_lt.1 hlong))
      omega

section Growing

variable {P : List ρ}

theorem fetch_behind (hexact : ∀ x y, K.ord x < K.ord y → K.after (K.cursor x) y = true)
    {A B : List ρ} {x : ρ} (h : K.Sorted (A ++ x :: B)) :
    K.fetch (some (K.cursor x)) (A ++ x :: B) = B := by
  unfold Sorted at h
  rw [List.pairwise_append, List.pairwise_cons] at h
  obtain ⟨-, ⟨hB, -⟩, hA⟩ := h
  have hnotA : A.filter (K.after (K.cursor x)) = [] := by
    apply List.filter_eq_nil_iff.2
    intro a ha hafter
    exact lt_asymm (K.lt_of_after hafter) (hA a ha x List.mem_cons_self)
  have hnotx : ¬ K.after (K.cursor x) x = true := fun hafter => lt_irrefl _ (K.lt_of_after hafter)
  have hallB : B.filter (K.after (K.cursor x)) = B :=
    List.filter_eq_self.2 fun b hb => hexact x b (hB b hb)
  simp only [fetch, List.filter_append, List.filter_cons, hnotA, if_neg hnotx, hallB,
    List.nil_append]

theorem fetch_grown (hexact : ∀ x y, K.ord x < K.ord y → K.after (K.cursor x) y = true)
    (hP : P <+: rows) (hc : K.fetch c rows = rows.drop P.length) {A B : List ρ} {x : ρ}
    (hsplit : K.fetch c rows = A ++ x :: B) {rows' : List ρ} (hgrown : rows <+: rows')
    (hsorted : K.Sorted rows') :
    K.fetch (some (K.cursor x)) rows' = rows'.drop (P ++ (A ++ [x])).length ∧
      P ++ (A ++ [x]) <+: rows' := by
  obtain ⟨Q, rfl⟩ := hP
  obtain ⟨R, rfl⟩ := hgrown
  rw [List.drop_left] at hc
  rw [hc] at hsplit
  subst hsplit
  have hshape : P ++ (A ++ x :: B) ++ R = (P ++ A) ++ x :: (B ++ R) := by simp
  constructor
  · rw [hshape] at hsorted ⊢
    rw [fetch_behind hexact hsorted, ← List.append_assoc P A, List.append_cons (P ++ A) x (B ++ R),
      List.drop_left]
  · exact ⟨B ++ R, by simp⟩

/-- Over a table to whose end rows are added the walk ends with the first page that the
rows behind it fit on, and has then shown the table as it was for that page. -/
theorem walk_growing (hn : 0 < n)
    (hexact : ∀ x y, K.ord x < K.ord y → K.after (K.cursor x) y = true)
    (hsorted : ∀ rows ∈ tables, K.Sorted rows) (hgrow : tables.Pairwise (· <+: ·))
    (hP : ∀ rows ∈ tables, P <+: rows)
    (hc : ∀ rows ∈ tables, K.fetch c rows = rows.drop P.length) :
    ((K.walk n c tables).done = true ↔
        ∃ k rows, tables[k]? = some rows ∧ rows.length ≤ P.length + n * (k + 1)) ∧
      ((K.walk n c tables).done = true →
        tables[(K.walk n c tables).ends.length]? = some (P ++ (K.walk n c tables).shown)) := by
  induction tables generalizing P c with
  | nil => simp [walk]
  | cons rows tables ih =>
    obtain ⟨hfirst, hrest⟩ := List.pairwise_cons.1 hgrow
    have hrows := hc rows List.mem_cons_self
    have hProws := hP rows List.mem_cons_self
    have hlen : (K.fetch c rows).length + P.length = rows.length := by
      rw [hrows, List.length_drop]
      have hle := hProws.length_le
      omega
    rcases fetch_cases K c rows hn with hlast | ⟨A, x, B, hsplit, hA, hB⟩
    · rw [walk_last hlast]
      constructor
      · simp only [true_iff]
        exact ⟨0, rows, rfl, by omega⟩
      · intro _
        obtain ⟨Q, rfl⟩ := hProws
        rw [hrows, List.drop_left]
        rfl
    · have hgrown : ∀ rows' ∈ tables, K.fetch (some (K.cursor x)) rows' =
          rows'.drop (P ++ (A ++ [x])).length ∧ P ++ (A ++ [x]) <+: rows' := by
        intro rows' hrows'
        exact fetch_grown hexact hProws hrows hsplit (hfirst rows' hrows')
          (hsorted rows' (List.mem_cons_of_mem rows hrows'))
      have hnext := ih (fun rows' h => hsorted rows' (List.mem_cons_of_mem rows h)) hrest
        (fun rows' h => (hgrown rows' h).2) (fun rows' h => (hgrown rows' h).1)
      have hlenP : (P ++ (A ++ [x])).length = P.length + n := by simp [hA]
      have hmore : P.length + n < rows.length := by
        have hpos := List.length_pos_of_ne_nil hB
        rw [hsplit, List.length_append, List.length_cons] at hlen
        omega
      have hstep : ∀ k, P.length + n + n * (k + 1) = P.length + n * (k + 1 + 1) := by
        intro k
        rw [Nat.mul_succ n (k + 1)]
        omega
      rw [hlenP] at hnext
      rw [walk_next hsplit hA hB]
      constructor
      · rw [hnext.1]
        constructor
        · rintro ⟨k, rows', hk, hfits⟩
          exact ⟨k + 1, rows', hk, by rw [← hstep]; exact hfits⟩
        · rintro ⟨k, rows', hk, hfits⟩
          cases k with
          | zero =>
            obtain rfl : rows = rows' := by simpa using hk
            omega
          | succ k => exact ⟨k, rows', hk, by rw [hstep]; exact hfits⟩
      · intro hdone
        rw [List.length_cons, List.getElem?_cons_succ, hnext.2 hdone, List.append_assoc P]

end Growing

end Keyset

end Vici2
