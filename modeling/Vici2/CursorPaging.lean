import Mathlib.Data.List.Sort
import Vici2.KeyedBatches

/-! Following a cursor through a listing whose pages come in another order than that of
the keys the cursor compares. Rows that are equal in the order of the pages come in any
order, at each query anew. -/

namespace Vici2

variable {α β : Type*} [LinearOrder β]

/-- `L` answers `ORDER BY ord` over the rows `W`. -/
structure Answer (ord : α → β) (W L : List α) : Prop where
  perm : L.Perm W
  sorted : L.Pairwise fun a b => ord a ≤ ord b

namespace Answer

variable {ord : α → β} {W L : List α}

theorem insertionSort (ord : α → β) (W : List α) :
    Answer ord W (W.insertionSort fun a b => ord a ≤ ord b) := by
  have : Std.Total fun a b : α => ord a ≤ ord b := ⟨fun a b => le_total (ord a) (ord b)⟩
  have : IsTrans α fun a b => ord a ≤ ord b := ⟨fun a b c => le_trans⟩
  exact ⟨List.perm_insertionSort _ W, List.pairwise_insertionSort _ W⟩

/-- The rows before and those after a place, each sorted on its own. -/
theorem split {W₁ W₂ X Y : List α} {s : α} (hW : W.Perm (s :: (W₁ ++ W₂)))
    (hX : Answer ord W₁ X) (hY : Answer ord W₂ Y) (hbefore : ∀ x ∈ W₁, ord x ≤ ord s)
    (hafter : ∀ y ∈ W₂, ord s ≤ ord y) : Answer ord W (X ++ s :: Y) := by
  constructor
  · calc (X ++ s :: Y).Perm (s :: (X ++ Y)) := List.perm_middle
      _ |>.Perm (s :: (W₁ ++ W₂)) := (hX.perm.append hY.perm).cons s
      _ |>.Perm W := hW.symm
  · have hbefore' : ∀ x ∈ X, ord x ≤ ord s := fun x hx => hbefore x (hX.perm.mem_iff.1 hx)
    have hafter' : ∀ y ∈ Y, ord s ≤ ord y := fun y hy => hafter y (hY.perm.mem_iff.1 hy)
    rw [List.pairwise_append, List.pairwise_cons]
    refine ⟨hX.sorted, ⟨hafter', hY.sorted⟩, ?_⟩
    intro x hx y hy
    rcases List.mem_cons.1 hy with rfl | hy
    · exact hbefore' x hx
    · exact le_trans (hbefore' x hx) (hafter' y hy)

/-- An answer in which a row comes first among its equals. -/
theorem tie_first (ord : α → β) {s : α} (hs : s ∈ W) :
    ∃ X Y, Answer ord W (X ++ s :: Y) ∧ ∀ x ∈ X, ord x < ord s := by
  obtain ⟨l, r, rfl⟩ := List.append_of_mem hs
  have hX := insertionSort ord ((l ++ r).filter fun x => decide (ord x < ord s))
  have hY := insertionSort ord ((l ++ r).filter fun x => !decide (ord x < ord s))
  refine ⟨_, _, split ?_ hX hY ?_ ?_, ?_⟩
  · exact List.perm_middle.trans ((List.filter_append_perm _ _).symm.cons s)
  · intro x hx
    exact le_of_lt (of_decide_eq_true (List.mem_filter.1 hx).2)
  · intro y hy
    have hge := (List.mem_filter.1 hy).2
    rw [Bool.not_eq_true', decide_eq_false_iff_not] at hge
    exact le_of_not_gt hge
  · intro x hx
    exact of_decide_eq_true (List.mem_filter.1 (hX.perm.mem_iff.1 hx)).2

theorem tie_last (ord : α → β) {s : α} (hs : s ∈ W) :
    ∃ X Y, Answer ord W (X ++ s :: Y) ∧ ∀ y ∈ Y, ord s < ord y := by
  obtain ⟨l, r, rfl⟩ := List.append_of_mem hs
  have hX := insertionSort ord ((l ++ r).filter fun x => decide (ord x ≤ ord s))
  have hY := insertionSort ord ((l ++ r).filter fun x => !decide (ord x ≤ ord s))
  have hafter : ∀ y ∈ (l ++ r).filter fun x => !decide (ord x ≤ ord s), ord s < ord y := by
    intro y hy
    have hgt := (List.mem_filter.1 hy).2
    rw [Bool.not_eq_true', decide_eq_false_iff_not] at hgt
    exact lt_of_not_ge hgt
  refine ⟨_, _, split ?_ hX hY ?_ ?_, ?_⟩
  · exact List.perm_middle.trans ((List.filter_append_perm _ _).symm.cons s)
  · intro x hx
    exact of_decide_eq_true (List.mem_filter.1 hx).2
  · intro y hy
    exact le_of_lt (hafter y hy)
  · intro y hy
    exact hafter y (hY.perm.mem_iff.1 hy)

/-- A row with at most `n` rows up to it is among the first `n`. -/
theorem mem_take {n : Nat} {s : α} (h : Answer ord W L) (hs : s ∈ W)
    (hn : W.countP (fun x => decide (ord x ≤ ord s)) ≤ n) : s ∈ L.take n := by
  by_contra hnot
  have hmem : s ∈ L := h.perm.mem_iff.2 hs
  have hdrop : s ∈ L.drop n := by
    rw [← List.take_append_drop n L] at hmem
    exact (List.mem_append.1 hmem).resolve_left hnot
  have hsorted := h.sorted
  rw [← List.take_append_drop n L, List.pairwise_append] at hsorted
  have hfirst : (L.take n).countP (fun x => decide (ord x ≤ ord s)) = n := by
    have hlen : n < L.length := by
      by_contra hshort
      rw [List.drop_eq_nil_of_le (Nat.not_lt.1 hshort)] at hdrop
      cases hdrop
    rw [List.countP_eq_length.2 fun x hx => decide_eq_true (hsorted.2.2 x hx s hdrop),
      List.length_take]
    omega
  have hrest : 0 < (L.drop n).countP (fun x => decide (ord x ≤ ord s)) :=
    List.countP_pos_iff.2 ⟨s, hdrop, decide_eq_true (le_refl _)⟩
  rw [← h.perm.countP_eq, ← List.take_append_drop n L, List.countP_append] at hn
  omega

/-- A row among the first `n` has fewer than `n` rows before it. -/
theorem countP_lt_of_mem_take {n : Nat} {r : α} (h : Answer ord W L) (hr : r ∈ L.take n) :
    W.countP (fun x => decide (ord x < ord r)) < n := by
  obtain ⟨X, Y, hsplit⟩ := List.append_of_mem hr
  have hlen : X.length < n := by
    have htake : (L.take n).length ≤ n := by
      rw [List.length_take]
      exact Nat.min_le_left _ _
    rw [hsplit, List.length_append, List.length_cons] at htake
    omega
  have hsorted := h.sorted
  rw [← List.take_append_drop n L, hsplit, List.append_assoc, List.cons_append,
    List.pairwise_append, List.pairwise_cons] at hsorted
  have hnone : (r :: (Y ++ L.drop n)).countP (fun x => decide (ord x < ord r)) = 0 := by
    apply List.countP_eq_zero.2
    intro y hy
    rw [decide_eq_true_eq]
    rcases List.mem_cons.1 hy with rfl | hy
    · exact lt_irrefl _
    · exact not_lt_of_ge (hsorted.2.1.1 y hy)
  have hle : X.countP (fun x => decide (ord x < ord r)) ≤ X.length := List.countP_le_length
  calc W.countP (fun x => decide (ord x < ord r)) =
        L.countP (fun x => decide (ord x < ord r)) := h.perm.countP_eq _ |>.symm
    _ = X.countP (fun x => decide (ord x < ord r)) := by
      conv_lhs => rw [← List.take_append_drop n L, hsplit, List.append_assoc, List.cons_append,
        List.countP_append, hnone, Nat.add_zero]
    _ < n := by omega

/-- An answer splits at a row that is strictly between the others. -/
theorem split_at {A B : List α} {b : α} (h : Answer ord (A ++ b :: B) L)
    (hbefore : ∀ a ∈ A, ord a < ord b) (hafter : ∀ x ∈ B, ord b < ord x) :
    ∃ X Y, L = X ++ b :: Y ∧ X.Perm A ∧ Y.Perm B := by
  have hmem : b ∈ L := h.perm.mem_iff.2 (by simp)
  obtain ⟨X, Y, rfl⟩ := List.append_of_mem hmem
  have hsorted := h.sorted
  rw [List.pairwise_append, List.pairwise_cons] at hsorted
  have hperm : (X ++ Y).Perm (A ++ B) :=
    (List.perm_middle.symm.trans (h.perm.trans List.perm_middle)).cons_inv
  have hX : ∀ x ∈ X, x ∈ A := by
    intro x hx
    rcases List.mem_append.1 (hperm.mem_iff.1 (List.mem_append_left Y hx)) with ha | hb
    · exact ha
    · exact absurd (hsorted.2.2 x hx b List.mem_cons_self) (not_le_of_gt (hafter x hb))
  have hY : ∀ y ∈ Y, y ∈ B := by
    intro y hy
    rcases List.mem_append.1 (hperm.mem_iff.1 (List.mem_append_right X hy)) with ha | hb
    · exact absurd (hsorted.2.1.1 y hy) (not_le_of_gt (hbefore y ha))
    · exact hb
  have hbX : X.filter (fun x => decide (ord x < ord b)) = X :=
    List.filter_eq_self.2 fun x hx => decide_eq_true (hbefore x (hX x hx))
  have hbY : Y.filter (fun x => decide (ord x < ord b)) = [] :=
    List.filter_eq_nil_iff.2 fun y hy => by simp [le_of_lt (hafter y (hY y hy))]
  have hbA : A.filter (fun x => decide (ord x < ord b)) = A :=
    List.filter_eq_self.2 fun a ha => decide_eq_true (hbefore a ha)
  have hbB : B.filter (fun x => decide (ord x < ord b)) = [] :=
    List.filter_eq_nil_iff.2 fun x hx => by simp [le_of_lt (hafter x hx)]
  have hXA : X.Perm A := by
    have hfilter := hperm.filter fun x => decide (ord x < ord b)
    rw [List.filter_append, List.filter_append, hbX, hbY, hbA, hbB, List.append_nil,
      List.append_nil] at hfilter
    exact hfilter
  refine ⟨X, Y, rfl, hXA, ?_⟩
  exact (List.perm_append_left_iff A).1 ((hXA.symm.append_right Y).trans hperm)

/-- Of the rows of a kind, when the first page has one, some row of the page may come
first. -/
theorem exists_first (h : Answer ord W L) (q : α → Bool) {n : Nat} {Z : List α} {x : α}
    (hx : x ∈ Z) (htake : L.take n = Z) (hq : q x = true) :
    ∃ z Y, z ∈ Z ∧ Answer ord (W.filter q) (z :: Y) := by
  subst htake
  have hsorted := h.sorted
  rw [← List.take_append_drop n L, List.pairwise_append] at hsorted
  obtain ⟨z, rest, hrest⟩ := List.exists_cons_of_ne_nil
    (List.ne_nil_of_mem (List.mem_filter.2 ⟨hx, hq⟩))
  have hzmem : z ∈ (L.take n).filter q := by
    rw [hrest]
    exact List.mem_cons_self
  obtain ⟨hz, hqz⟩ := List.mem_filter.1 hzmem
  have hpage := hsorted.1.filter q
  rw [hrest, List.pairwise_cons] at hpage
  have hmin : ∀ w ∈ W.filter q, ord z ≤ ord w := by
    intro w hw
    obtain ⟨hwW, hqw⟩ := List.mem_filter.1 hw
    have hwL := h.perm.mem_iff.2 hwW
    rw [← List.take_append_drop n L] at hwL
    rcases List.mem_append.1 hwL with hw | hw
    · have hwz : w ∈ (L.take n).filter q := List.mem_filter.2 ⟨hw, hqw⟩
      rw [hrest] at hwz
      rcases List.mem_cons.1 hwz with rfl | hwz
      · exact le_refl _
      · exact hpage.1 w hwz
    · exact hsorted.2.2 z hz w hw
  have hzW : z ∈ W.filter q := List.mem_filter.2 ⟨h.perm.mem_iff.1 (List.mem_of_mem_take hz), hqz⟩
  obtain ⟨X, Y, hans, hbefore⟩ := tie_first ord hzW
  have hnil : X = [] := by
    apply List.eq_nil_iff_forall_not_mem.2
    intro y hy
    have hyW : y ∈ W.filter q := hans.perm.mem_iff.1 (List.mem_append_left _ hy)
    exact absurd (hbefore y hy) (not_lt_of_ge (hmin y hyW))
  subst hnil
  exact ⟨z, Y, hz, hans⟩

end Answer

/-- Pages of `limit` rows in the order `ord`. One row more is fetched; what `post` keeps
of them is the page, and if all of them are kept, the last is held back and the cursor
is the key of the one before. -/
structure Paging (α β : Type*) where
  key : α → Int
  ord : α → β
  post : α → Bool
  limit : Nat
  limit_pos : 0 < limit

/-- Following the cursor; `respond k` is the answer to the `k`-th request from here. -/
def follow (respond : Nat → Option Int → List α × Option Int) :
    Nat → Option Int → Option (List α)
  | 0, _ => none
  | fuel + 1, cursor =>
    match (respond 0 cursor).2 with
    | none => some (respond 0 cursor).1
    | some next =>
      (follow (fun k => respond (k + 1)) fuel (some next)).map ((respond 0 cursor).1 ++ ·)

namespace Paging

variable (P : Paging α β)

def page (L : List α) : List α × Option Int :=
  let results := (L.take (P.limit + 1)).filter P.post
  if P.limit < results.length then
    (results.dropLast, results.dropLast.getLast?.map P.key)
  else (results, none)

/-- A cursor of 0 is no cursor. -/
def fetch (rows : List α) (cursor : Option Int) : List α :=
  match cursor with
  | none => rows
  | some c => rows.filter fun r => c == 0 || decide (P.key r < c)

def respond (rows : List α) (orders : Nat → List α → List α) (k : Nat) (cursor : Option Int) :
    List α × Option Int :=
  P.page (orders k (P.fetch rows cursor))

def Legal (orders : Nat → List α → List α) : Prop := ∀ k W, Answer P.ord W (orders k W)

/-- However ties fall, the walk from the cursor ends and completes `acc` to the target. -/
def Completes (rows : List α) (cursor : Option Int) (acc target : List α) : Prop :=
  ∀ orders, P.Legal orders → ∃ fuel out,
    follow (P.respond rows orders) fuel cursor = some out ∧ (acc ++ out).Perm target

/-- Every row that `post` keeps is returned once. -/
def Exact (rows : List α) : Prop := P.Completes rows none [] (rows.filter P.post)

/-- The rows stand in step with the order of their keys, the newest first: of those kept,
the `limit` newest come before the others, and the oldest of these last; the rows that are
not kept come after the page. At the end all that are kept are within one fetch. -/
inductive InStep : List α → Prop
  | last {W : List α} (hfew : (W.filter P.post).length ≤ P.limit)
      (hnear : ∀ s ∈ W, P.post s = true →
        W.countP (fun x => decide (P.ord x ≤ P.ord s)) ≤ P.limit + 1) : InStep W
  | next {W A B : List α} {b : α} (hkept : W.filter P.post = A ++ b :: B)
      (hsize : A.length + 1 = P.limit) (hmore : B ≠ []) (hkey : P.key b ≠ 0)
      (hbefore : ∀ a ∈ A, P.ord a < P.ord b) (hafter : ∀ x ∈ B, P.ord b < P.ord x)
      (hfar : ∀ r ∈ W, P.post r = false →
        P.limit < W.countP fun x => decide (P.ord x < P.ord r))
      (hrest : InStep (W.filter fun r => decide (P.key r < P.key b))) : InStep W

variable {P} {rows : List α}

omit [LinearOrder β] in
theorem page_few {L : List α} (h : ((L.take (P.limit + 1)).filter P.post).length ≤ P.limit) :
    P.page L = ((L.take (P.limit + 1)).filter P.post, none) := by
  unfold page
  simp only [if_neg (Nat.not_lt.2 h)]

omit [LinearOrder β] in
/-- A page with more to come holds the first rows, all of them kept, and the cursor is
the key of the last. -/
theorem page_more {L : List α} (h : P.limit < ((L.take (P.limit + 1)).filter P.post).length) :
    (∀ x ∈ L.take (P.limit + 1), P.post x = true) ∧ P.limit < L.length ∧
      ∃ X b, L.take P.limit = X ++ [b] ∧ X.length + 1 = P.limit ∧
        P.page L = (X ++ [b], some (P.key b)) := by
  have hle : ((L.take (P.limit + 1)).filter P.post).length ≤ (L.take (P.limit + 1)).length :=
    List.length_filter_le _ _
  have htake : (L.take (P.limit + 1)).length ≤ P.limit + 1 := by
    rw [List.length_take]
    exact Nat.min_le_left _ _
  have hlen : P.limit < L.length := by
    rw [List.length_take] at htake hle
    omega
  have hall : ∀ x ∈ L.take (P.limit + 1), P.post x = true :=
    List.length_filter_eq_length_iff.1 (by omega)
  refine ⟨hall, hlen, ?_⟩
  have hne : L.take P.limit ≠ [] := by
    have hpos := P.limit_pos
    apply List.ne_nil_of_length_pos
    rw [List.length_take]
    omega
  have hsplit := (List.dropLast_append_getLast hne).symm
  have hdrop : (L.take (P.limit + 1)).dropLast = L.take P.limit := by
    rw [List.dropLast_eq_take, List.take_take, List.length_take]
    congr 1
    omega
  refine ⟨_, _, hsplit, ?_, ?_⟩
  · rw [List.length_dropLast, List.length_take]
    have hpos := P.limit_pos
    omega
  · unfold page
    simp only [if_pos h]
    rw [List.filter_eq_self.2 hall, hdrop, ← hsplit]
    rw [List.getLast?_eq_some_getLast hne]
    rfl

omit [LinearOrder β] in
theorem page_cases (P : Paging α β) (L : List α) :
    (((L.take (P.limit + 1)).filter P.post).length ≤ P.limit ∧
        P.page L = ((L.take (P.limit + 1)).filter P.post, none)) ∨
      ((∀ x ∈ L.take (P.limit + 1), P.post x = true) ∧ P.limit < L.length ∧
        ∃ X b, L.take P.limit = X ++ [b] ∧ X.length + 1 = P.limit ∧
          P.page L = (X ++ [b], some (P.key b))) := by
  by_cases h : P.limit < ((L.take (P.limit + 1)).filter P.post).length
  · exact Or.inr (page_more h)
  · exact Or.inl ⟨Nat.not_lt.1 h, page_few (Nat.not_lt.1 h)⟩

theorem exists_legal (P : Paging α β) : ∃ orders, P.Legal orders :=
  ⟨fun _ W => W.insertionSort fun a b => P.ord a ≤ P.ord b,
    fun _ W => Answer.insertionSort P.ord W⟩

theorem Legal.tail {orders : Nat → List α → List α} (h : P.Legal orders) :
    P.Legal fun k => orders (k + 1) := fun k W => h (k + 1) W

/-- Any answer may be the first, whatever the later ones are. -/
theorem Legal.cons {orders : Nat → List α → List α} (h : P.Legal orders) {W L : List α}
    (hL : Answer P.ord W L) : ∃ orders', P.Legal orders' ∧ orders' 0 W = L ∧
      (fun k => orders' (k + 1)) = orders := by
  classical
  refine ⟨fun k => Nat.casesOn k (Function.update (orders 0) W L) orders, ?_,
    Function.update_self _ _ _, rfl⟩
  rintro (_ | k) V
  · show Answer P.ord _ (Function.update (orders 0) W L _)
    by_cases hV : V = W
    · subst hV
      rw [Function.update_self]
      exact hL
    · rw [Function.update_of_ne hV]
      exact h 0 V
  · exact h k V

/-- One request: it ends the walk, or the walk goes on from its cursor. -/
theorem completes_iff {cursor : Option Int} {acc target : List α} :
    P.Completes rows cursor acc target ↔ ∀ L, Answer P.ord (P.fetch rows cursor) L →
      match (P.page L).2 with
      | none => (acc ++ (P.page L).1).Perm target
      | some next => P.Completes rows (some next) (acc ++ (P.page L).1) target := by
  constructor
  · intro h L hL
    have hfollow : ∀ orders, P.Legal orders → ∃ orders' fuel out,
        (fun k => orders' (k + 1)) = orders ∧
        follow (P.respond rows orders') fuel cursor = some out ∧ (acc ++ out).Perm target ∧
        P.respond rows orders' 0 cursor = P.page L := by
      intro orders horders
      obtain ⟨orders', hlegal, hfirst, hrest⟩ := horders.cons hL
      obtain ⟨fuel, out, hrun, hperm⟩ := h orders' hlegal
      refine ⟨orders', fuel, out, hrest, hrun, hperm, ?_⟩
      unfold respond
      rw [hfirst]
    cases hnext : (P.page L).2 with
    | none =>
      obtain ⟨orders, horders⟩ := exists_legal P
      obtain ⟨orders', fuel, out, -, hrun, hperm, hresp⟩ := hfollow orders horders
      cases fuel with
      | zero => cases hrun
      | succ fuel =>
        simp only [follow, hresp, hnext, Option.some.injEq] at hrun
        rw [hrun]
        exact hperm
    | some next =>
      intro orders horders
      obtain ⟨orders', fuel, out, rfl, hrun, hperm, hresp⟩ := hfollow orders horders
      cases fuel with
      | zero => cases hrun
      | succ fuel =>
        simp only [follow, hresp, hnext] at hrun
        obtain ⟨rest, hrest, rfl⟩ := Option.map_eq_some_iff.1 hrun
        refine ⟨fuel, rest, hrest, ?_⟩
        rw [List.append_assoc]
        exact hperm
  · intro h orders horders
    have hL := h _ (horders 0 (P.fetch rows cursor))
    have hresp : P.respond rows orders 0 cursor = P.page (orders 0 (P.fetch rows cursor)) := rfl
    cases hnext : (P.page (orders 0 (P.fetch rows cursor))).2 with
    | none =>
      rw [hnext] at hL
      refine ⟨1, _, ?_, hL⟩
      simp only [follow, hresp, hnext]
    | some next =>
      rw [hnext] at hL
      obtain ⟨fuel, out, hrun, hperm⟩ := hL _ horders.tail
      refine ⟨fuel + 1, (P.page (orders 0 (P.fetch rows cursor))).1 ++ out, ?_, ?_⟩
      · simp only [follow, hresp, hnext]
        exact Option.map_eq_some_iff.2 ⟨out, hrun, rfl⟩
      · rw [← List.append_assoc]
        exact hperm

theorem Completes.congr {cursor : Option Int} {acc acc' target target' : List α}
    (h : P.Completes rows cursor acc target) (hacc : acc.Perm acc')
    (htarget : target.Perm target') : P.Completes rows cursor acc' target' := by
  intro orders horders
  obtain ⟨fuel, out, hrun, hperm⟩ := h orders horders
  exact ⟨fuel, out, hrun, (hacc.symm.append_right out).trans (hperm.trans htarget)⟩

def Newest (P : Paging α β) (rows : List α) : Prop := rows.Pairwise fun a b => P.key b < P.key a

omit [LinearOrder β] in
theorem fetch_sublist (P : Paging α β) (rows : List α) (cursor : Option Int) :
    (P.fetch rows cursor).Sublist rows := by
  cases cursor with
  | none => exact List.Sublist.refl rows
  | some c => exact List.filter_sublist

omit [LinearOrder β] in
theorem Newest.nodup (h : P.Newest rows) : rows.Nodup :=
  List.Pairwise.imp (fun hlt heq => absurd hlt (by rw [heq]; exact Int.lt_irrefl _)) h

omit [LinearOrder β] in
theorem Newest.key_inj {x y : α} (h : P.Newest rows) (hx : x ∈ rows) (hy : y ∈ rows)
    (heq : P.key x = P.key y) : x = y := by
  induction rows with
  | nil => cases hx
  | cons r rows ih =>
    obtain ⟨hfirst, hrest⟩ := List.pairwise_cons.1 h
    rcases List.mem_cons.1 hx with rfl | hx'
    · rcases List.mem_cons.1 hy with rfl | hy'
      · rfl
      · have hlt := hfirst y hy'
        omega
    · rcases List.mem_cons.1 hy with rfl | hy'
      · have hlt := hfirst x hx'
        omega
      · exact ih hrest hx' hy'

omit [LinearOrder β] in
theorem mem_page_head {z : α} (Y : List α) (hz : P.post z = true) : z ∈ (P.page (z :: Y)).1 := by
  rcases page_cases P (z :: Y) with ⟨-, hpage⟩ | ⟨-, -, X, b, htake, -, hpage⟩
  · rw [hpage]
    exact List.mem_filter.2 ⟨List.mem_cons_self, hz⟩
  · rw [hpage]
    show z ∈ X ++ [b]
    obtain ⟨n, hn⟩ : ∃ n, P.limit = n + 1 := ⟨P.limit - 1, by have := P.limit_pos; omega⟩
    rw [← htake, hn]
    exact List.mem_cons_self

omit [LinearOrder β] in
/-- The rows after the cursor of a row that was fetched. -/
theorem fetch_some {cursor : Option Int} {b : α} (hb : b ∈ P.fetch rows cursor)
    (hkey : P.key b ≠ 0) :
    P.fetch rows (some (P.key b)) =
      (P.fetch rows cursor).filter fun r => decide (P.key r < P.key b) := by
  cases cursor with
  | none =>
    apply List.filter_congr
    intro r _
    simp [hkey]
  | some c =>
    have hc := (List.mem_filter.1 hb).2
    simp only [fetch, List.filter_filter]
    apply List.filter_congr
    intro r _
    rw [Bool.eq_iff_iff]
    simp only [Bool.or_eq_true, beq_iff_eq, decide_eq_true_eq, Bool.and_eq_true] at hc ⊢
    constructor
    · rintro (hzero | hlt)
      · exact absurd hzero hkey
      · refine ⟨hlt, ?_⟩
        rcases hc with hzero | hlt'
        · exact Or.inl hzero
        · exact Or.inr (Int.lt_trans hlt hlt')
    · rintro ⟨hlt, -⟩
      exact Or.inr hlt

omit [LinearOrder β] in
/-- Of rows with the newest first, those after the key of one are the rows behind it. -/
theorem filter_key_lt_of_newest {S A B : List α} {b : α} (h : P.Newest S) (hS : S = A ++ b :: B) :
    S.filter (fun r => decide (P.key r < P.key b)) = B := by
  subst hS
  unfold Newest at h
  rw [List.pairwise_append, List.pairwise_cons] at h
  obtain ⟨-, ⟨hB, -⟩, hA⟩ := h
  have hAnil : A.filter (fun r => decide (P.key r < P.key b)) = [] := by
    apply List.filter_eq_nil_iff.2
    intro a ha
    have hlt := hA a ha b List.mem_cons_self
    simp only [decide_eq_true_eq]
    omega
  have hBall : B.filter (fun r => decide (P.key r < P.key b)) = B :=
    List.filter_eq_self.2 fun x hx => decide_eq_true (hB x hx)
  rw [List.filter_append, hAnil, List.filter_cons_of_neg (by simp), hBall, List.nil_append]

/-- Rows that are not kept, when they come late, leave the first fetch to those kept. -/
theorem kept_of_far {W L : List α} (h : Answer P.ord W L)
    (hfar : ∀ r ∈ W, P.post r = false → P.limit < W.countP fun x => decide (P.ord x < P.ord r)) :
    ∀ x ∈ L.take (P.limit + 1), P.post x = true := by
  intro x hx
  by_contra hno
  have hmem : x ∈ W := h.perm.mem_iff.1 (List.mem_of_mem_take hx)
  have hcount := h.countP_lt_of_mem_take hx
  have hlate := hfar x hmem (by simpa using hno)
  omega

/-- The last page: all rows kept are within its fetch. -/
theorem page_last {W L : List α} (hL : Answer P.ord W L) (hnodup : W.Nodup)
    (hfew : (W.filter P.post).length ≤ P.limit)
    (hnear : ∀ s ∈ W, P.post s = true →
      W.countP (fun x => decide (P.ord x ≤ P.ord s)) ≤ P.limit + 1) :
    P.page L = (L.filter P.post, none) := by
  have hcount : (L.filter P.post).length ≤ P.limit := by
    rw [(hL.perm.filter P.post).length_eq]
    exact hfew
  have hall : (L.drop (P.limit + 1)).filter P.post = [] := by
    apply List.filter_eq_nil_iff.2
    intro s hs hpost
    have hmem : s ∈ W := hL.perm.mem_iff.1 (List.mem_of_mem_drop hs)
    have htake := hL.mem_take hmem (hnear s hmem hpost)
    have hnodupL : L.Nodup := hL.perm.nodup_iff.2 hnodup
    rw [← List.take_append_drop (P.limit + 1) L] at hnodupL
    exact (List.nodup_append.1 hnodupL).2.2 s htake s hs rfl
  have hsame : (L.take (P.limit + 1)).filter P.post = L.filter P.post := by
    conv_rhs => rw [← List.take_append_drop (P.limit + 1) L, List.filter_append, hall,
      List.append_nil]
  rw [page_few (by rw [hsame]; exact hcount), hsame]

/-- A page with more to come, where the newest rows kept come first and the rows not kept
come late. -/
theorem page_next {W L A B : List α} {b : α} (hL : Answer P.ord W L)
    (hkept : W.filter P.post = A ++ b :: B) (hsize : A.length + 1 = P.limit) (hmore : B ≠ [])
    (hbefore : ∀ a ∈ A, P.ord a < P.ord b) (hafter : ∀ x ∈ B, P.ord b < P.ord x)
    (hfar : ∀ r ∈ W, P.post r = false → P.limit < W.countP fun x => decide (P.ord x < P.ord r)) :
    ∃ X : List α, X.Perm A ∧ P.page L = (X ++ [b], some (P.key b)) := by
  have hall := kept_of_far hL hfar
  have hLS : Answer P.ord (A ++ b :: B) (L.filter P.post) := by
    rw [← hkept]
    exact ⟨hL.perm.filter P.post, hL.sorted.filter P.post⟩
  obtain ⟨X, Y, hsplit, hXA, -⟩ := hLS.split_at hbefore hafter
  have hlen : P.limit < L.length := by
    have hkeptlen : (L.filter P.post).length = A.length + (B.length + 1) := by
      rw [hLS.perm.length_eq, List.length_append, List.length_cons]
    have hpos := List.length_pos_iff.2 hmore
    have hle := List.length_filter_le P.post L
    omega
  have hfetched : (L.take (P.limit + 1)).length = P.limit + 1 := by
    rw [List.length_take]
    omega
  have htake : L.take P.limit = X ++ [b] := by
    have hfirst : L.filter P.post =
        L.take (P.limit + 1) ++ (L.drop (P.limit + 1)).filter P.post := by
      conv_lhs => rw [← List.take_append_drop (P.limit + 1) L, List.filter_append,
        List.filter_eq_self.2 hall]
    have hX : (X ++ [b]).length = P.limit := by
      rw [List.length_append, hXA.length_eq]
      exact hsize
    calc L.take P.limit = (L.filter P.post).take P.limit := by
          rw [hfirst, List.take_append_of_le_length (by omega), List.take_take]
          congr 1
          omega
      _ = (X ++ [b] ++ Y).take P.limit := by
          rw [hsplit, List.append_assoc]
          rfl
      _ = X ++ [b] := List.take_left' hX
  have hlong : P.limit < ((L.take (P.limit + 1)).filter P.post).length := by
    rw [List.filter_eq_self.2 hall]
    omega
  obtain ⟨-, -, X', b', htake', -, hpage⟩ := page_more hlong
  rw [htake] at htake'
  obtain ⟨rfl, hb⟩ := List.append_inj' htake' rfl
  obtain rfl := List.cons.inj hb |>.1
  exact ⟨X, hXA, hpage⟩

theorem InStep.completes (hnewest : P.Newest rows) {W : List α} (h : P.InStep W)
    (cursor : Option Int) (hW : P.fetch rows cursor = W) (acc : List α) :
    P.Completes rows cursor acc (acc ++ W.filter P.post) := by
  induction h generalizing cursor acc with
  | @last W hfew hnear =>
    rw [completes_iff, hW]
    intro L hL
    have hnodup : W.Nodup := by
      rw [← hW]
      exact hnewest.nodup.sublist (fetch_sublist P rows cursor)
    rw [page_last hL hnodup hfew hnear]
    exact (hL.perm.filter P.post).append_left acc
  | @next W A B b hkept hsize hmore hkey hbefore hafter hfar hrest ih =>
    rw [completes_iff, hW]
    intro L hL
    obtain ⟨X, hXA, hpage⟩ := page_next hL hkept hsize hmore hbefore hafter hfar
    rw [hpage]
    have hmem : b ∈ P.fetch rows cursor := by
      rw [hW]
      exact (List.mem_filter.1 (by rw [hkept]; simp)).1
    have hnext : P.fetch rows (some (P.key b)) =
        W.filter fun r => decide (P.key r < P.key b) := by
      rw [fetch_some hmem hkey, hW]
    have hB : (W.filter fun r => decide (P.key r < P.key b)).filter P.post = B := by
      rw [List.filter_comm, filter_key_lt_of_newest _ hkept]
      rw [← hW]
      exact hnewest.sublist (List.filter_sublist.trans (fetch_sublist P rows cursor))
    have hgo := ih _ hnext (acc ++ (X ++ [b]))
    rw [hB] at hgo
    apply hgo.congr (List.Perm.refl _)
    rw [hkept, List.append_assoc, List.append_assoc]
    exact (hXA.append_right _).append_left acc

/-- A row returned before is not on the next page. -/
theorem Completes.not_again {cursor : Option Int} {acc target L : List α}
    (h : P.Completes rows cursor acc target) (hnodup : target.Nodup)
    (hL : Answer P.ord (P.fetch rows cursor) L) {a : α} (ha : a ∈ acc) : a ∉ (P.page L).1 := by
  intro hpage
  have hstep := completes_iff.1 h L hL
  have htwice : ∀ out, ((acc ++ (P.page L).1) ++ out).Perm target → False := by
    intro out hperm
    have hall := hperm.nodup_iff.2 hnodup
    have hboth := (List.nodup_append.1 (List.nodup_append.1 hall).1).2.2
    exact hboth a ha a hpage rfl
  cases hnext : (P.page L).2 with
  | none =>
    rw [hnext] at hstep
    apply htwice []
    rw [List.append_nil]
    exact hstep
  | some next =>
    rw [hnext] at hstep
    obtain ⟨orders, horders⟩ := exists_legal P
    obtain ⟨-, out, -, hperm⟩ := hstep orders horders
    exact htwice out hperm

/-- The walk has begun: some row returned is on a first page. -/
def Begun (P : Paging α β) (rows acc : List α) : Prop :=
  ∃ a ∈ acc, ∃ L, Answer P.ord rows L ∧ a ∈ (P.page L).1

/-- At the first page nothing has been returned. -/
def Reached (P : Paging α β) (rows : List α) (cursor : Option Int) (acc : List α) : Prop :=
  cursor = none ∨ P.Begun rows acc

theorem Reached.next {cursor : Option Int} {acc L : List α} (h : P.Reached rows cursor acc)
    (hL : Answer P.ord (P.fetch rows cursor) L) {a : α} (ha : a ∈ (P.page L).1) :
    P.Begun rows (acc ++ (P.page L).1) := by
  rcases h with rfl | ⟨x, hx, L', hL', hpage⟩
  · exact ⟨a, List.mem_append_right _ ha, L, hL, ha⟩
  · exact ⟨x, List.mem_append_left _ hx, L', hL', hpage⟩

/-- A cursor of 0 would start again. -/
theorem Completes.cursor_ne_zero {acc target : List α} {c : Int}
    (h : P.Completes rows (some c) acc target) (hnodup : target.Nodup)
    (hbegun : P.Begun rows acc) : c ≠ 0 := by
  rintro rfl
  obtain ⟨a, ha, L, hL, hpage⟩ := hbegun
  have hall : P.fetch rows (some 0) = rows := List.filter_eq_self.2 fun r _ => rfl
  exact h.not_again hnodup (by rw [hall]; exact hL) ha hpage

omit [LinearOrder β] in
theorem length_fetch_lt (cursor : Option Int) {b : α} (hb : b ∈ P.fetch rows cursor)
    (hkey : P.key b ≠ 0) :
    (P.fetch rows (some (P.key b))).length < (P.fetch rows cursor).length := by
  rw [fetch_some hb hkey]
  apply List.length_filter_lt_length_iff_exists.2
  exact ⟨b, hb, by simp⟩

/-- A page with more to come: the walk goes on behind its last row. -/
theorem Completes.turn {cursor : Option Int} {acc target L X : List α} {b : α}
    (h : P.Completes rows cursor acc target) (hnodup : target.Nodup)
    (hreached : P.Reached rows cursor acc) (hL : Answer P.ord (P.fetch rows cursor) L)
    (htake : L.take P.limit = X ++ [b]) (hpage : P.page L = (X ++ [b], some (P.key b))) :
    P.Completes rows (some (P.key b)) (acc ++ (X ++ [b])) target ∧
      P.Begun rows (acc ++ (X ++ [b])) ∧ P.key b ≠ 0 ∧
      ∀ y ∈ X ++ [b], y ∈ P.fetch rows cursor := by
  have hstep := completes_iff.1 h L hL
  have hbmem : b ∈ (P.page L).1 := by
    rw [hpage]
    simp
  have hbegun := hreached.next hL hbmem
  rw [hpage] at hstep hbegun
  refine ⟨hstep, hbegun, Completes.cursor_ne_zero hstep hnodup hbegun, ?_⟩
  intro y hy
  rw [← htake] at hy
  exact hL.perm.mem_iff.1 (List.mem_of_mem_take hy)

/-- Some walk from the cursor returns only rows after it. -/
theorem Completes.exists_out {cursor : Option Int} {acc target : List α}
    (h : P.Completes rows cursor acc target) (hnodup : target.Nodup)
    (hreached : P.Reached rows cursor acc) :
    ∃ out, (acc ++ out).Perm target ∧ ∀ y ∈ out, y ∈ P.fetch rows cursor := by
  induction hn : (P.fetch rows cursor).length using Nat.strong_induction_on generalizing cursor acc with
  | h n ih =>
    have hL := Answer.insertionSort P.ord (P.fetch rows cursor)
    rcases page_cases P _ with ⟨-, hpage⟩ | ⟨-, -, X, b, htake, -, hpage⟩
    · have hstep := completes_iff.1 h _ hL
      rw [hpage] at hstep
      refine ⟨_, hstep, ?_⟩
      intro y hy
      exact hL.perm.mem_iff.1 (List.mem_of_mem_take (List.mem_filter.1 hy).1)
    · obtain ⟨hstep, hbegun, hkey, hXb⟩ := Completes.turn h hnodup hreached hL htake hpage
      have hless := length_fetch_lt cursor (hXb b (by simp)) hkey
      obtain ⟨out, hperm, hout⟩ := ih _ (by omega) hstep (Or.inr hbegun) rfl
      refine ⟨X ++ [b] ++ out, ?_, ?_⟩
      · rw [← List.append_assoc]
        exact hperm
      · intro y hy
        rcases List.mem_append.1 hy with hy | hy
        · exact hXb y hy
        · have hmem := hout y hy
          rw [fetch_some (hXb b (by simp)) hkey] at hmem
          exact (List.mem_filter.1 hmem).1

/-- What a page with more to come holds if the walk is to complete: rows newer than all
other rows kept, the oldest of them last. -/
structure NewestPage (P : Paging α β) (rows : List α) (acc target : List α) (W L X : List α)
    (b : α) : Prop where
  take : L.take P.limit = X ++ [b]
  size : X.length + 1 = P.limit
  kept : ∀ x ∈ L.take (P.limit + 1), P.post x = true
  key : P.key b ≠ 0
  rest : P.Completes rows (some (P.key b)) (acc ++ (X ++ [b])) target
  begun : P.Begun rows (acc ++ (X ++ [b]))
  newer : ∀ x ∈ X, P.key b < P.key x
  older : ∀ s ∈ W.filter P.post, s ∉ X ++ [b] → P.key s < P.key b

theorem NewestPage.lowest {acc target W L X : List α} {b : α}
    (h : NewestPage P rows acc target W L X b) : ∀ t ∈ X ++ [b], P.key b ≤ P.key t := by
  intro t ht
  rcases List.mem_append.1 ht with ht | ht
  · exact Int.le_of_lt (h.newer t ht)
  · rw [List.mem_singleton.1 ht]

theorem Completes.newestPage {cursor : Option Int} {acc target W L : List α}
    (hnewest : P.Newest rows) (h : P.Completes rows cursor acc target)
    (hW : P.fetch rows cursor = W) (htarget : target.Perm (acc ++ W.filter P.post))
    (hnodup : target.Nodup) (hreached : P.Reached rows cursor acc) (hL : Answer P.ord W L)
    (hmany : P.limit < (W.filter P.post).length) :
    ∃ X b, NewestPage P rows acc target W L X b := by
  subst hW
  rcases page_cases P L with ⟨hfew, hpage⟩ | ⟨hkept, hlen, X, b, htake, hsize, hpage⟩
  · -- the walk would end with fewer rows than are kept
    have hstep := completes_iff.1 h L hL
    rw [hpage] at hstep
    have hperm := (List.perm_append_left_iff acc).1 (hstep.trans htarget)
    have hsame : ((L.take (P.limit + 1)).filter P.post).length = _ := hperm.length_eq
    omega
  · obtain ⟨hstep, hbegun, hkey, hXb⟩ := Completes.turn h hnodup hreached hL htake hpage
    have hrest := fetch_some (hXb b (by simp)) hkey
    have hfetched : (P.fetch rows cursor).Nodup := hnewest.nodup.sublist (fetch_sublist P rows cursor)
    refine ⟨X, b, htake, hsize, hkept, hkey, hstep, hbegun, ?_, ?_⟩
    · -- an older row of the page could come first on the next
      intro x hx
      by_contra hno
      have hpageNodup : (X ++ [b]).Nodup := by
        rw [← htake]
        exact (hL.perm.nodup_iff.2 hfetched).sublist (List.take_sublist _ _)
      have hxb : x ≠ b := by
        intro hxb
        exact (List.nodup_append.1 hpageNodup).2.2 x hx b (by simp) hxb
      have hne : P.key x ≠ P.key b := by
        intro heq
        apply hxb
        exact hnewest.key_inj ((fetch_sublist P rows cursor).subset (hXb x (by simp [hx])))
          ((fetch_sublist P rows cursor).subset (hXb b (by simp))) heq
      obtain ⟨z, Y, hz, hfirst⟩ := hL.exists_first (fun r => decide (P.key r < P.key b))
        (List.mem_append_left [b] hx) htake (decide_eq_true (by omega))
      rw [← hrest] at hfirst
      have hzpost : P.post z = true := by
        apply hkept
        rw [← htake] at hz
        exact (List.take_subset_take_left L (Nat.le_succ _)) hz
      exact Completes.not_again hstep hnodup hfirst (List.mem_append_right acc hz)
        (mem_page_head Y hzpost)
    · intro s hs hnot
      obtain ⟨out, hperm, hout⟩ := Completes.exists_out hstep hnodup (Or.inr hbegun)
      have hcancel := (hperm.trans htarget)
      rw [List.append_assoc, List.perm_append_left_iff] at hcancel
      have hmem := (List.mem_append.1 (hcancel.mem_iff.2 hs)).resolve_left hnot
      have hafter := hout s hmem
      rw [hrest] at hafter
      exact of_decide_eq_true (List.mem_filter.1 hafter).2

/-- The rows of the page are those of the newest rows kept: one that is not would leave
more than a page of rows no older than its last. -/
theorem NewestPage.subset {acc target W L X A B : List α} {b c : α}
    (h : NewestPage P rows acc target W L X c) (hL : Answer P.ord W L) (hW : P.Newest W)
    (hkept : W.filter P.post = A ++ b :: B) (hsize : A.length + 1 = P.limit) :
    ∀ t ∈ X ++ [c], t ∈ A ++ [b] := by
  have hS : P.Newest (A ++ b :: B) := by
    rw [← hkept]
    exact List.Pairwise.filter P.post hW
  unfold Newest at hS
  rw [List.pairwise_append, List.pairwise_cons] at hS
  obtain ⟨hA, ⟨hB, -⟩, hAB⟩ := hS
  have hnodup : (A ++ [b]).Nodup := by
    have hall : (A ++ b :: B).Nodup := by
      rw [← hkept]
      exact hW.nodup.filter P.post
    exact hall.sublist ((List.singleton_sublist.2 List.mem_cons_self).append_left A)
  have hin : ∀ t ∈ X ++ [c], t ∈ A ++ b :: B := by
    intro t ht
    rw [← h.take] at ht
    rw [← hkept]
    exact List.mem_filter.2 ⟨hL.perm.mem_iff.1 (List.mem_of_mem_take ht),
      h.kept t ((List.take_subset_take_left L (Nat.le_succ _)) ht)⟩
  have hhigh : ∀ u ∈ A ++ [b], P.key b ≤ P.key u := by
    intro u hu
    rcases List.mem_append.1 hu with hu | hu
    · exact Int.le_of_lt (hAB u hu b List.mem_cons_self)
    · rw [List.mem_singleton.1 hu]
  intro t ht
  by_contra hnot
  have htB : t ∈ B := by
    rcases List.mem_append.1 (hin t ht) with htA | htB
    · exact absurd (List.mem_append_left [b] htA) hnot
    · rcases List.mem_cons.1 htB with rfl | htB
      · exact absurd (List.mem_append_right A (List.mem_singleton.2 rfl)) hnot
      · exact htB
  have hback : ∀ u ∈ t :: (A ++ [b]), u ∈ X ++ [c] := by
    intro u hu
    rcases List.mem_cons.1 hu with rfl | hu
    · exact ht
    · by_contra hout
      have hmem : u ∈ W.filter P.post := by
        rw [hkept]
        exact ((List.singleton_sublist.2 List.mem_cons_self).append_left A).subset hu
      have hlt := h.older u hmem hout
      have h1 := h.lowest t ht
      have h2 := hB t htB
      have h3 := hhigh u hu
      omega
  have hle := (List.subperm_of_subset (List.nodup_cons.2 ⟨hnot, hnodup⟩) hback).length_le
  rw [List.length_cons, List.length_append, List.length_append, List.length_singleton,
    List.length_singleton, h.size] at hle
  omega

/-- The page is made of the newest rows kept, and its cursor is the last of them. -/
theorem NewestPage.eq {acc target W L X A B : List α} {b c : α}
    (h : NewestPage P rows acc target W L X c) (hL : Answer P.ord W L) (hW : P.Newest W)
    (hkept : W.filter P.post = A ++ b :: B) (hsize : A.length + 1 = P.limit) :
    c = b ∧ X.Perm A := by
  have hsub := h.subset hL hW hkept hsize
  have hnodup : (X ++ [c]).Nodup := by
    rw [← h.take]
    exact (hL.perm.nodup_iff.2 hW.nodup).sublist (List.take_sublist _ _)
  have hlen : (X ++ [c]).length = (A ++ [b]).length := by
    rw [List.length_append, List.length_append, List.length_singleton, List.length_singleton,
      h.size, hsize]
  have hperm : (X ++ [c]).Perm (A ++ [b]) :=
    (List.subperm_of_subset hnodup hsub).perm_of_length_le (by omega)
  have hAb : ∀ a ∈ A, P.key b < P.key a := by
    have hS : P.Newest (A ++ b :: B) := by
      rw [← hkept]
      exact List.Pairwise.filter P.post hW
    unfold Newest at hS
    exact fun a ha => (List.pairwise_append.1 hS).2.2 a ha b List.mem_cons_self
  have hcb : c = b := by
    have hlow := h.lowest b (hperm.mem_iff.2 (by simp))
    rcases List.mem_append.1 (hsub c (by simp)) with hc | hc
    · have hlt := hAb c hc
      omega
    · exact List.mem_singleton.1 hc
  subst hcb
  exact ⟨rfl, (List.perm_append_right_iff [c]).1 hperm⟩

/-- Where a walk completes, the rows before the last row of the page are the newest ones
in every arrangement: an equal of that row could stand on either side of it. -/
theorem newest_before {acc target W A B : List α} {c : α} (hW : P.Newest W)
    (hpage : ∀ L, Answer P.ord W L → ∃ X b, NewestPage P rows acc target W L X b)
    (hkept : W.filter P.post = A ++ c :: B) (hsize : A.length + 1 = P.limit) {X Y : List α}
    (hans : Answer P.ord W (X ++ c :: Y)) : X.Perm A := by
  obtain ⟨X', b, hnp⟩ := hpage _ hans
  obtain ⟨rfl, hXA⟩ := hnp.eq hans hW hkept hsize
  have hsplit := List.take_append_drop P.limit (X ++ b :: Y)
  rw [hnp.take, List.append_assoc, List.singleton_append] at hsplit
  have hnodup : (X ++ b :: Y).Nodup := hans.perm.nodup_iff.2 hW.nodup
  have hbA : b ∉ A := by
    have hnodupS : (A ++ b :: B).Nodup := by
      rw [← hkept]
      exact hW.nodup.filter P.post
    intro hb
    exact (List.nodup_append.1 hnodupS).2.2 b hb b List.mem_cons_self rfl
  have hbX : b ∉ X' := fun hb => hbA (hXA.mem_iff.1 hb)
  have hbrest : b ∉ (X ++ b :: Y).drop P.limit := by
    rw [← hsplit] at hnodup
    exact (List.nodup_cons.1 (List.nodup_append.1 hnodup).2.1).1
  obtain ⟨rfl, -⟩ := (List.append_cons_inj_of_notMem hbX hbrest).1 hsplit
  exact hXA

/-- A row that comes first among its equals has only the earlier rows before it. -/
theorem mem_take_of_countP {W X Y : List α} {r : α} {n : Nat} (hans : Answer P.ord W (X ++ r :: Y))
    (hbefore : ∀ x ∈ X, P.ord x < P.ord r)
    (hfew : W.countP (fun x => decide (P.ord x < P.ord r)) < n) : r ∈ (X ++ r :: Y).take n := by
  have hcount : X.length ≤ W.countP (fun x => decide (P.ord x < P.ord r)) := by
    rw [← hans.perm.countP_eq, List.countP_append,
      List.countP_eq_length.2 fun x hx => decide_eq_true (hbefore x hx)]
    exact Nat.le_add_right _ _
  obtain ⟨k, hk⟩ : ∃ k, n - X.length = k + 1 := ⟨n - X.length - 1, by omega⟩
  rw [List.take_append, hk]
  exact List.mem_append_right _ List.mem_cons_self

omit [LinearOrder β] in
theorem exists_split_at_limit {S : List α} (hmany : P.limit < S.length) :
    ∃ A b B, S = A ++ b :: B ∧ A.length + 1 = P.limit ∧ B ≠ [] := by
  have hpos := P.limit_pos
  refine ⟨S.take (P.limit - 1), S[P.limit - 1], S.drop P.limit, ?_, ?_, ?_⟩
  · conv_lhs => rw [← List.take_append_drop (P.limit - 1) S]
    rw [List.drop_eq_getElem_cons (by omega)]
    congr 3
    omega
  · rw [List.length_take]
    omega
  · apply List.ne_nil_of_length_pos
    rw [List.length_drop]
    omega

/-- When one page is left, every row kept is within its fetch: a row that comes last among
its equals could be behind it. -/
theorem Completes.last {cursor : Option Int} {acc target W : List α}
    (h : P.Completes rows cursor acc target) (hW : P.fetch rows cursor = W)
    (htarget : target.Perm (acc ++ W.filter P.post)) (hnodup : W.Nodup)
    (hfew : (W.filter P.post).length ≤ P.limit) {s : α} (hs : s ∈ W) (hpost : P.post s = true) :
    W.countP (fun x => decide (P.ord x ≤ P.ord s)) ≤ P.limit + 1 := by
  by_contra hfar
  obtain ⟨X, Y, hans, hafter⟩ := Answer.tie_last P.ord hs
  have hnone : Y.countP (fun x => decide (P.ord x ≤ P.ord s)) = 0 :=
    List.countP_eq_zero.2 fun y hy => by simp [hafter y hy]
  have hlong : P.limit + 1 ≤ X.length := by
    have hle : X.countP (fun x => decide (P.ord x ≤ P.ord s)) ≤ X.length := List.countP_le_length
    rw [← hans.perm.countP_eq, List.countP_append, List.countP_cons, hnone] at hfar
    simp only [le_refl, decide_true, if_true] at hfar
    omega
  have hout : s ∉ (X ++ s :: Y).take (P.limit + 1) := by
    have hnodup' : (X ++ s :: Y).Nodup := hans.perm.nodup_iff.2 hnodup
    rw [List.take_append_of_le_length hlong]
    intro hmem
    exact (List.nodup_append.1 hnodup').2.2 s (List.mem_of_mem_take hmem) s (by simp) rfl
  have hcount : (((X ++ s :: Y).take (P.limit + 1)).filter P.post).length ≤ P.limit := by
    have hle := ((List.take_sublist (P.limit + 1) (X ++ s :: Y)).filter P.post).length_le
    rw [(hans.perm.filter P.post).length_eq] at hle
    omega
  have hstep := completes_iff.1 h _ (by rw [hW]; exact hans)
  rw [page_few hcount] at hstep
  have hperm := (List.perm_append_left_iff acc).1 (hstep.trans htarget)
  exact hout (List.mem_filter.1 (hperm.mem_iff.2 (List.mem_filter.2 ⟨hs, hpost⟩))).1

theorem Completes.inStep (hnewest : P.Newest rows) {cursor : Option Int} {acc target : List α}
    (h : P.Completes rows cursor acc target)
    (htarget : target.Perm (acc ++ (P.fetch rows cursor).filter P.post)) (hnodup : target.Nodup)
    (hreached : P.Reached rows cursor acc) : P.InStep (P.fetch rows cursor) := by
  induction hn : (P.fetch rows cursor).length using Nat.strong_induction_on
    generalizing cursor acc with
  | h n ih =>
    obtain ⟨W, hW⟩ : ∃ W, P.fetch rows cursor = W := ⟨_, rfl⟩
    rw [hW] at htarget hn ⊢
    have hnewestW : P.Newest W := by
      rw [← hW]
      exact hnewest.sublist (fetch_sublist P rows cursor)
    by_cases hmany : P.limit < (W.filter P.post).length
    · have hpage : ∀ L, Answer P.ord W L → ∃ X c, NewestPage P rows acc target W L X c :=
        fun L hL => h.newestPage hnewest hW htarget hnodup hreached hL hmany
      obtain ⟨A, b, B, hkept, hsize, hmore⟩ := exists_split_at_limit hmany
      have hbW : b ∈ W := (List.mem_filter.1 (by rw [hkept]; simp)).1
      have hnodupS : (A ++ b :: B).Nodup := by
        rw [← hkept]
        exact hnewestW.nodup.filter P.post
      have hL := Answer.insertionSort P.ord W
      obtain ⟨X, c, hnp⟩ := hpage _ hL
      obtain ⟨rfl, hXA⟩ := hnp.eq hL hnewestW hkept hsize
      have hrestW : P.fetch rows (some (P.key c)) = W.filter fun r => decide (P.key r < P.key c) := by
        rw [fetch_some (by rw [hW]; exact hbW) hnp.key, hW]
      have hB : (W.filter fun r => decide (P.key r < P.key c)).filter P.post = B := by
        rw [List.filter_comm]
        exact filter_key_lt_of_newest (List.Pairwise.filter P.post hnewestW) hkept
      refine InStep.next hkept hsize hmore hnp.key ?_ ?_ ?_ ?_
      · intro a ha
        by_contra hge
        obtain ⟨X', Y', hans, hbefore⟩ := Answer.tie_first P.ord hbW
        have hperm := newest_before hnewestW hpage hkept hsize hans
        exact hge (hbefore a (hperm.mem_iff.2 ha))
      · intro x hx
        by_contra hle
        obtain ⟨X', Y', hans, hafter⟩ := Answer.tie_last P.ord hbW
        have hperm := newest_before hnewestW hpage hkept hsize hans
        have hxW : x ∈ W := (List.mem_filter.1 (by rw [hkept]; simp [hx])).1
        have hxA : x ∉ A := fun ha => (List.nodup_append.1 hnodupS).2.2 x ha x (by simp [hx]) rfl
        have hxc : x ≠ c := by
          rintro rfl
          exact (List.nodup_cons.1 (List.nodup_append.1 hnodupS).2.1).1 hx
        rcases List.mem_append.1 (hans.perm.mem_iff.2 hxW) with hx' | hx'
        · exact hxA (hperm.mem_iff.1 hx')
        · rcases List.mem_cons.1 hx' with rfl | hx'
          · exact hxc rfl
          · exact hle (hafter x hx')
      · intro r hr hpost
        by_contra hfew
        obtain ⟨X', Y', hans, hbefore⟩ := Answer.tie_first P.ord hr
        obtain ⟨X'', c', hnp'⟩ := hpage _ hans
        rw [hnp'.kept r (mem_take_of_countP hans hbefore (by omega))] at hpost
        cases hpost
      · rw [← hrestW]
        apply ih _ _ hnp.rest _ (Or.inr hnp.begun) rfl
        · have hless := length_fetch_lt cursor (by rw [hW]; exact hbW) hnp.key
          rw [hW] at hless
          omega
        · rw [hrestW, hB, List.append_assoc, List.append_assoc]
          apply htarget.trans
          rw [hkept]
          exact (hXA.symm.append_right _).append_left acc
    · have hfew := Nat.not_lt.1 hmany
      exact InStep.last hfew fun s hs hpost => h.last hW htarget hnewestW.nodup hfew hs hpost

/-- The walk returns every row kept once, however ties fall, exactly where the rows stand
in step with their keys. -/
theorem exact_iff (hnewest : P.Newest rows) : P.Exact rows ↔ P.InStep rows := by
  constructor
  · intro h
    apply Completes.inStep hnewest h (List.Perm.refl _) _ (Or.inl rfl)
    exact hnewest.nodup.filter P.post
  · intro h
    exact h.completes hnewest none rfl []

end Paging

end Vici2
