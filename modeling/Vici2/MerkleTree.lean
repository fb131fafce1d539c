import Mathlib.Algebra.Group.Nat.Defs
import Mathlib.Data.List.Forall2

/-! Merkle trees built level by level, with the last node of an odd level
doubled. The doubling turns the leaves into those of a perfect tree; if no two
of the inputs hashed on the way collide, two lists of leaves have the same root
just when these lists are the same. -/

namespace Vici2

namespace Merkle

variable {α D : Type*}

def padEven (nodes : List D) : List D :=
  if nodes.length % 2 = 0 then nodes else nodes ++ nodes.getLast?.toList

def pairUp : List D → List (D × D)
  | l :: r :: rest => (l, r) :: pairUp rest
  | _ => []

def levelPairs (nodes : List D) : List (D × D) := pairUp (padEven nodes)

def nextLevel (node : D → D → D) (nodes : List D) : List D :=
  (levelPairs nodes).map fun p => node p.1 p.2

/-- The root of a level; a level of `n` nodes needs at most `n` rounds. -/
def reduceIn (node : D → D → D) : Nat → List D → Option D
  | _, [] => none
  | _, [d] => some d
  | 0, _ => none
  | n + 1, nodes => reduceIn node n (nextLevel node nodes)

def reduce (node : D → D → D) (nodes : List D) : Option D := reduceIn node nodes.length nodes

def pairsIn (node : D → D → D) : Nat → List D → List (D × D)
  | _, [] => []
  | _, [_] => []
  | 0, _ => []
  | n + 1, nodes => levelPairs nodes ++ pairsIn node n (nextLevel node nodes)

def hashedPairs (node : D → D → D) (nodes : List D) : List (D × D) :=
  pairsIn node nodes.length nodes

/-- The digest `d` is the root of a tree over the leaves listed, whose inputs
are among those admitted by `L` and `N`. -/
inductive Covers (leaf : α → D) (node : D → D → D) (L : α → Prop) (N : D → D → Prop) :
    D → List α → Prop
  | leaf (x : α) (hx : L x) : Covers leaf node L N (leaf x) [x]
  | node {l r : D} {a b : List α} (hl : Covers leaf node L N l a) (hr : Covers leaf node L N r b)
    (hn : N l r) : Covers leaf node L N (node l r) (a ++ b)

/-- A tree of one height: its digest and the leaves listed. -/
inductive Perfect (leaf : α → D) (node : D → D → D) (L : α → Prop) (N : D → D → Prop) :
    Nat → D → List α → Prop
  | leaf (x : α) (hx : L x) : Perfect leaf node L N 0 (leaf x) [x]
  | node {k : Nat} {l r : D} {a b : List α} (hl : Perfect leaf node L N k l a)
    (hr : Perfect leaf node L N k r b) (hn : N l r) :
    Perfect leaf node L N (k + 1) (node l r) (a ++ b)

/-- No two admitted inputs have the same digest. -/
structure CollisionFree (leaf : α → D) (node : D → D → D) (L : α → Prop) (N : D → D → Prop) :
    Prop where
  leaf_inj : ∀ x y, L x → L y → leaf x = leaf y → x = y
  node_inj : ∀ l r l' r', N l r → N l' r' → node l r = node l' r' → l = l' ∧ r = r'
  leaf_ne_node : ∀ x l r, L x → N l r → leaf x ≠ node l r

/-- Inputs admitted by `L` and `N` and inputs admitted by `L'` and `N'` have
different digests, unless they are the same. -/
structure Separated (leaf : α → D) (node : D → D → D) (L : α → Prop) (N : D → D → Prop)
    (L' : α → Prop) (N' : D → D → Prop) : Prop where
  leaf_inj : ∀ x y, L x → L' y → leaf x = leaf y → x = y
  node_inj : ∀ l r l' r', N l r → N' l' r' → node l r = node l' r' → l = l' ∧ r = r'
  leaf_ne_node : ∀ x l r, L x → N' l r → leaf x ≠ node l r
  node_ne_leaf : ∀ l r x, N l r → L' x → node l r ≠ leaf x

variable {leaf : α → D} {node : D → D → D} {L : α → Prop} {N : D → D → Prop}

theorem Separated.collisionFree {N' : D → D → Prop} (h : Separated leaf node L N L N')
    (hN : ∀ l r, N l r → N' l r) : CollisionFree leaf node L N where
  leaf_inj := h.leaf_inj
  node_inj l r l' r' hlr hlr' := h.node_inj l r l' r' hlr (hN l' r' hlr')
  leaf_ne_node x l r hx hlr := h.leaf_ne_node x l r hx (hN l r hlr)

theorem Covers.unique (hfree : CollisionFree leaf node L N) {d : D} {a : List α}
    (ha : Covers leaf node L N d a) {b : List α} (hb : Covers leaf node L N d b) : a = b := by
  induction ha generalizing b with
  | leaf x hx =>
    generalize hd : leaf x = d at hb
    cases hb with
    | leaf y hy => rw [hfree.leaf_inj x y hx hy hd]
    | node hl hr hn => exact absurd hd (hfree.leaf_ne_node _ _ _ hx hn)
  | @node l r a a' hl hr hn ihl ihr =>
    generalize hd : node l r = d at hb
    cases hb with
    | leaf y hy => exact absurd hd.symm (hfree.leaf_ne_node _ _ _ hy hn)
    | node hl' hr' hn' =>
      obtain ⟨rfl, rfl⟩ := hfree.node_inj _ _ _ _ hn hn' hd
      rw [ihl hl', ihr hr']

theorem length_pairUp (nodes : List D) : (pairUp nodes).length = nodes.length / 2 := by
  induction nodes using pairUp.induct with
  | case1 l r rest ih =>
    simp only [pairUp, List.length_cons, ih]
    omega
  | case2 nodes hne =>
    match nodes, hne with
    | [], _ => simp [pairUp]
    | [d], _ => simp [pairUp]
    | l :: r :: rest, hne => exact absurd rfl (hne l r rest)

theorem length_nextLevel (nodes : List D) :
    (nextLevel node nodes).length = (nodes.length + 1) / 2 := by
  unfold nextLevel levelPairs padEven
  rw [List.length_map, length_pairUp]
  split
  · omega
  · cases nodes with
    | nil => simp
    | cons d nodes =>
      rw [List.getLast?_eq_some_getLast (by simp)]
      simp only [Option.toList_some, List.length_append, List.length_cons, List.length_nil]

theorem reduceIn_isSome {n : Nat} {nodes : List D} (hne : nodes ≠ []) (hn : nodes.length ≤ n + 1) :
    ∃ d, reduceIn node n nodes = some d := by
  induction n generalizing nodes with
  | zero =>
    match nodes, hne, hn with
    | [d], _, _ => exact ⟨d, rfl⟩
    | d :: e :: rest, _, hn =>
      simp only [List.length_cons] at hn
      omega
  | succ n ih =>
    match nodes, hne, hn with
    | [d], _, _ => exact ⟨d, rfl⟩
    | d :: e :: rest, _, hn =>
      have hlen : (nextLevel node (d :: e :: rest)).length = (rest.length + 3) / 2 :=
        length_nextLevel _
      simp only [List.length_cons] at hn
      apply ih
      · intro hnil
        rw [hnil] at hlen
        simp only [List.length_nil] at hlen
        omega
      · omega

theorem reduce_isSome {nodes : List D} (hne : nodes ≠ []) : ∃ d, reduce node nodes = some d :=
  reduceIn_isSome hne (by omega)


section Related

variable {E : Type*} {node' : E → E → E}

theorem forall₂_getLast {R : D → E → Prop} {nodes : List D} {ms : List E}
    (h : List.Forall₂ R nodes ms) :
    List.Forall₂ R nodes.getLast?.toList ms.getLast?.toList := by
  induction h with
  | nil => simp
  | @cons d m nodes ms hdm h ih =>
    cases h with
    | nil => simpa using hdm
    | cons hdm' h' => simpa [List.getLast?_cons_cons] using ih

theorem forall₂_padEven {R : D → E → Prop} {nodes : List D} {ms : List E}
    (h : List.Forall₂ R nodes ms) : List.Forall₂ R (padEven nodes) (padEven ms) := by
  unfold padEven
  rw [h.length_eq]
  split
  · exact h
  · exact List.rel_append h (forall₂_getLast h)

theorem forall₂_pairUp {R : D → E → Prop} {nodes : List D} {ms : List E}
    (h : List.Forall₂ R nodes ms) :
    List.Forall₂ (fun p q => R p.1 q.1 ∧ R p.2 q.2) (pairUp nodes) (pairUp ms) := by
  induction nodes using pairUp.induct generalizing ms with
  | case1 l r rest ih =>
    obtain ⟨a, ms', hl, h', rfl⟩ := List.forall₂_cons_left_iff.1 h
    obtain ⟨b, ms, hr, hrest, rfl⟩ := List.forall₂_cons_left_iff.1 h'
    exact List.Forall₂.cons ⟨hl, hr⟩ (ih hrest)
  | case2 nodes hne =>
    match nodes, hne with
    | [], _ =>
      obtain rfl := List.forall₂_nil_left_iff.1 h
      exact List.Forall₂.nil
    | [d], _ =>
      obtain ⟨a, ms', hl, h', rfl⟩ := List.forall₂_cons_left_iff.1 h
      obtain rfl := List.forall₂_nil_left_iff.1 h'
      exact List.Forall₂.nil
    | l :: r :: rest, hne => exact absurd rfl (hne l r rest)

theorem forall₂_nextLevel {R S : D → E → Prop} {N : D → D → Prop} {nodes : List D} {ms : List E}
    (hstep : ∀ l r a b, N l r → R l a → R r b → S (node l r) (node' a b))
    (h : List.Forall₂ R nodes ms) (hN : ∀ p ∈ levelPairs nodes, N p.1 p.2) :
    List.Forall₂ S (nextLevel node nodes) (nextLevel node' ms) := by
  unfold nextLevel
  rw [List.forall₂_map_left_iff, List.forall₂_map_right_iff]
  have hpairs := (List.forall₂_and_left _ _).2 ⟨hN, forall₂_pairUp (forall₂_padEven h)⟩
  exact hpairs.imp fun p q hpq => hstep _ _ _ _ hpq.1 hpq.2.1 hpq.2.2

/-- Two trees of one shape, related from the leaves upward. -/
theorem reduceIn_rel {R : Nat → D → E → Prop} {N : D → D → Prop}
    (hstep : ∀ k l r a b, N l r → R k l a → R k r b → R (k + 1) (node l r) (node' a b))
    {n k : Nat} {nodes : List D} {ms : List E} {d : D} (h : List.Forall₂ (R k) nodes ms)
    (hd : reduceIn node n nodes = some d) (hN : ∀ p ∈ pairsIn node n nodes, N p.1 p.2) :
    ∃ j e, reduceIn node' n ms = some e ∧ R j d e := by
  induction n generalizing k nodes ms with
  | zero =>
    match nodes, h, hd with
    | [c], h, hd =>
      obtain ⟨e, rest, hc, hrest, rfl⟩ := List.forall₂_cons_left_iff.1 h
      obtain rfl := List.forall₂_nil_left_iff.1 hrest
      obtain rfl : c = d := by simpa [reduceIn] using hd
      exact ⟨k, e, rfl, hc⟩
  | succ n ih =>
    match nodes, h, hd, hN with
    | [c], h, hd, hN =>
      obtain ⟨e, rest, hc, hrest, rfl⟩ := List.forall₂_cons_left_iff.1 h
      obtain rfl := List.forall₂_nil_left_iff.1 hrest
      obtain rfl : c = d := by simpa [reduceIn] using hd
      exact ⟨k, e, rfl, hc⟩
    | l :: r :: rest, h, hd, hN =>
      have hnext : List.Forall₂ (R (k + 1)) (nextLevel node (l :: r :: rest)) (nextLevel node' ms) :=
        forall₂_nextLevel (hstep k) h fun p hp => hN p (List.mem_append_left _ hp)
      obtain ⟨j, e, he, hde⟩ := ih hnext hd fun p hp => hN p (List.mem_append_right _ hp)
      obtain ⟨a, ms', -, h', rfl⟩ := List.forall₂_cons_left_iff.1 h
      obtain ⟨b, ms, -, -, rfl⟩ := List.forall₂_cons_left_iff.1 h'
      exact ⟨j, e, he, hde⟩

end Related

/-- The leaves under the root, with those the padding repeats. -/
def expand (xs : List α) : List α := (reduce (· ++ ·) (xs.map fun x => [x])).getD []

theorem flatten_pairUp {bs : List (List α)} (hlen : bs.length % 2 = 0) :
    ((pairUp bs).map fun p => p.1 ++ p.2).flatten = bs.flatten := by
  induction bs using pairUp.induct with
  | case1 l r rest ih =>
    have hrest : rest.length % 2 = 0 := by
      simp only [List.length_cons] at hlen
      omega
    simp [pairUp, ih hrest]
  | case2 bs hne =>
    match bs, hne with
    | [], _ => rfl
    | [d], _ => simp at hlen
    | l :: r :: rest, hne => exact absurd rfl (hne l r rest)

theorem length_padEven_even (nodes : List D) : (padEven nodes).length % 2 = 0 := by
  unfold padEven
  split
  · assumption
  · cases nodes with
    | nil => simp at *
    | cons d nodes =>
      rw [List.getLast?_eq_some_getLast (by simp)]
      simp only [Option.toList_some, List.length_append, List.length_cons, List.length_nil] at *
      omega

theorem mem_of_mem_padEven {nodes : List D} {d : D} (hd : d ∈ padEven nodes) : d ∈ nodes := by
  unfold padEven at hd
  split at hd
  · exact hd
  · rcases List.mem_append.1 hd with hd | hd
    · exact hd
    · rw [Option.mem_toList] at hd
      exact List.mem_of_getLast? hd

theorem padEven_eq_append (nodes : List D) : ∃ ext, padEven nodes = nodes ++ ext := by
  unfold padEven
  split
  · exact ⟨[], (List.append_nil _).symm⟩
  · exact ⟨_, rfl⟩

theorem flatten_nextLevel (bs : List (List α)) :
    ∃ ext, (nextLevel (· ++ ·) bs).flatten = bs.flatten ++ ext ∧ ∀ x ∈ ext, x ∈ bs.flatten := by
  obtain ⟨ext, hext⟩ := padEven_eq_append bs
  have hflat : (nextLevel (· ++ ·) bs).flatten = bs.flatten ++ ext.flatten := by
    unfold nextLevel levelPairs
    rw [flatten_pairUp (length_padEven_even bs), hext, List.flatten_append]
  refine ⟨ext.flatten, hflat, ?_⟩
  intro x hx
  obtain ⟨b, hb, hxb⟩ := List.mem_flatten.1 hx
  have hmem : b ∈ padEven bs := by
    rw [hext]
    exact List.mem_append_right _ hb
  exact List.mem_flatten.2 ⟨b, mem_of_mem_padEven hmem, hxb⟩

theorem reduceIn_append {n : Nat} {bs : List (List α)} {e : List α}
    (he : reduceIn (· ++ ·) n bs = some e) :
    ∃ ext, e = bs.flatten ++ ext ∧ ∀ x ∈ ext, x ∈ bs.flatten := by
  induction n generalizing bs with
  | zero =>
    match bs, he with
    | [b], he =>
      obtain rfl : b = e := by simpa [reduceIn] using he
      exact ⟨[], by simp, by simp⟩
  | succ n ih =>
    match bs, he with
    | [b], he =>
      obtain rfl : b = e := by simpa [reduceIn] using he
      exact ⟨[], by simp, by simp⟩
    | b :: c :: rest, he =>
      obtain ⟨ext, hflat, hext⟩ := flatten_nextLevel (b :: c :: rest)
      obtain ⟨ext', heq, hext'⟩ := ih he
      rw [hflat] at heq hext'
      refine ⟨ext ++ ext', by rw [heq, List.append_assoc], ?_⟩
      intro x hx
      rcases List.mem_append.1 hx with hx | hx
      · exact hext x hx
      · exact (List.mem_append.1 (hext' x hx)).elim id (hext x)

theorem flatten_map_singleton (xs : List α) : (xs.map fun x => [x]).flatten = xs := by
  rw [← List.flatMap_def, List.flatMap_singleton']

theorem expand_nil : expand ([] : List α) = [] := rfl

theorem expand_eq_append (xs : List α) : ∃ ext, expand xs = xs ++ ext ∧ ∀ z ∈ ext, z ∈ xs := by
  by_cases hne : xs = []
  · rw [hne]
    exact ⟨[], rfl, by simp⟩
  · have hsome : ∃ e, reduce (· ++ ·) (xs.map fun x => [x]) = some e :=
      reduce_isSome (by simpa using hne)
    obtain ⟨e, he⟩ := hsome
    obtain ⟨ext, heq, hext⟩ := reduceIn_append he
    rw [flatten_map_singleton] at heq hext
    refine ⟨ext, ?_, hext⟩
    unfold expand
    rw [he, ← heq]
    rfl

theorem expand_prefix (xs : List α) : xs <+: expand xs := by
  obtain ⟨ext, heq, -⟩ := expand_eq_append xs
  exact ⟨ext, heq.symm⟩

theorem expand_eq_nil_iff {xs : List α} : expand xs = [] ↔ xs = [] := by
  constructor
  · intro h
    have hprefix := expand_prefix xs
    rw [h] at hprefix
    exact List.prefix_nil.1 hprefix
  · rintro rfl
    exact expand_nil

theorem eq_of_expand_eq {xs ys : List α} (h : expand xs = expand ys)
    (hlen : xs.length = ys.length) : xs = ys := by
  have hx := expand_prefix xs
  have hy := expand_prefix ys
  rw [h] at hx
  exact (List.prefix_of_prefix_length_le hx hy (Nat.le_of_eq hlen)).eq_of_length hlen

/-- Lists that the padding makes the same: one of them is the other with some of
its own leaves repeated at the end. -/
theorem repeats_of_expand_eq {xs ys : List α} (h : expand xs = expand ys) :
    (∃ ext, ys = xs ++ ext ∧ ∀ z ∈ ext, z ∈ xs) ∨ ∃ ext, xs = ys ++ ext ∧ ∀ z ∈ ext, z ∈ ys := by
  obtain ⟨e, hx, hex⟩ := expand_eq_append xs
  obtain ⟨e', hy, hey⟩ := expand_eq_append ys
  have heq : xs ++ e = ys ++ e' := hx.symm.trans (h.trans hy)
  rcases List.append_eq_append_iff.1 heq with ⟨z, hys, he⟩ | ⟨z, hxs, he⟩
  · refine Or.inl ⟨z, hys, ?_⟩
    intro w hw
    exact hex w (by rw [he]; exact List.mem_append_left _ hw)
  · refine Or.inr ⟨z, hxs, ?_⟩
    intro w hw
    exact hey w (by rw [he]; exact List.mem_append_left _ hw)

theorem Perfect.covers {k : Nat} {d : D} {xs : List α} (h : Perfect leaf node L N k d xs) :
    Covers leaf node L N d xs := by
  induction h with
  | leaf x hx => exact Covers.leaf x hx
  | node hl hr hn ihl ihr => exact Covers.node ihl ihr hn

theorem Perfect.length_eq {k : Nat} {d : D} {xs : List α} (h : Perfect leaf node L N k d xs) :
    xs.length = 2 ^ k := by
  induction h with
  | leaf x hx => rfl
  | node hl hr hn ihl ihr => rw [List.length_append, ihl, ihr, Nat.pow_succ, Nat.mul_two]

theorem Perfect.digest_unique {k : Nat} {d d' : D} {xs : List α}
    (h : Perfect leaf node L N k d xs) (h' : Perfect leaf node L N k d' xs) : d = d' := by
  induction h generalizing d' with
  | leaf x hx =>
    generalize hxs : [x] = xs at h'
    cases h' with
    | leaf y hy => rw [List.singleton_inj.1 hxs]
  | @node k l r a b hl hr hn ihl ihr =>
    generalize hxs : a ++ b = xs at h'
    cases h' with
    | node hl' hr' hn' =>
      obtain ⟨rfl, rfl⟩ := List.append_inj hxs (hl.length_eq.trans hl'.length_eq.symm)
      rw [ihl hl', ihr hr']

theorem perfect_reduce {xs : List α} {d : D} (hd : reduce node (xs.map leaf) = some d)
    (hL : ∀ x ∈ xs, L x) (hN : ∀ p ∈ hashedPairs node (xs.map leaf), N p.1 p.2) :
    ∃ k, Perfect leaf node L N k d (expand xs) := by
  have hleaves : List.Forall₂ (Perfect leaf node L N 0) (xs.map leaf) (xs.map fun x => [x]) := by
    rw [List.forall₂_map_left_iff, List.forall₂_map_right_iff, List.forall₂_same]
    exact fun x hx => Perfect.leaf x (hL x hx)
  have hstep : ∀ k l r (a b : List α), N l r → Perfect leaf node L N k l a →
      Perfect leaf node L N k r b → Perfect leaf node L N (k + 1) (node l r) (a ++ b) :=
    fun k l r a b hn hl hr => Perfect.node hl hr hn
  obtain ⟨k, e, he, hcov⟩ := reduceIn_rel (R := Perfect leaf node L N) hstep hleaves hd hN
  refine ⟨k, ?_⟩
  unfold expand reduce
  rw [List.length_map] at he ⊢
  rw [he]
  exact hcov

/-- Two lists have the same root just when the padding makes them the same. -/
theorem reduce_eq_iff (hfree : CollisionFree leaf node L N) {xs ys : List α} {d e : D}
    (hx : reduce node (xs.map leaf) = some d) (hy : reduce node (ys.map leaf) = some e)
    (hLx : ∀ x ∈ xs, L x) (hLy : ∀ y ∈ ys, L y)
    (hNx : ∀ p ∈ hashedPairs node (xs.map leaf), N p.1 p.2)
    (hNy : ∀ p ∈ hashedPairs node (ys.map leaf), N p.1 p.2) :
    d = e ↔ expand xs = expand ys := by
  obtain ⟨j, hpx⟩ := perfect_reduce hx hLx hNx
  obtain ⟨k, hpy⟩ := perfect_reduce hy hLy hNy
  constructor
  · rintro rfl
    exact hpx.covers.unique hfree hpy.covers
  · intro h
    rw [← h] at hpy
    have hjk : 2 ^ j = 2 ^ k := hpx.length_eq.symm.trans hpy.length_eq
    obtain rfl := (Nat.pow_right_inj Nat.one_lt_two).1 hjk
    exact hpx.digest_unique hpy

theorem mem_pairUp {nodes : List D} {p : D × D} (h : p ∈ pairUp nodes) :
    p.1 ∈ nodes ∧ p.2 ∈ nodes := by
  induction nodes using pairUp.induct with
  | case1 l r rest ih =>
    rcases List.mem_cons.1 h with rfl | h
    · simp
    · obtain ⟨h1, h2⟩ := ih h
      exact ⟨List.mem_cons_of_mem _ (List.mem_cons_of_mem _ h1),
        List.mem_cons_of_mem _ (List.mem_cons_of_mem _ h2)⟩
  | case2 nodes hne =>
    match nodes, hne with
    | [], _ => simp [pairUp] at h
    | [d], _ => simp [pairUp] at h
    | l :: r :: rest, hne => exact absurd rfl (hne l r rest)

theorem mem_levelPairs {nodes : List D} {p : D × D} (h : p ∈ levelPairs nodes) :
    p.1 ∈ nodes ∧ p.2 ∈ nodes := by
  obtain ⟨h1, h2⟩ := mem_pairUp h
  exact ⟨mem_of_mem_padEven h1, mem_of_mem_padEven h2⟩

/-- What holds of the nodes of a level and of every digest holds of all the
nodes hashed above it. -/
theorem forall_mem_pairsIn {Q : D → Prop} (hnode : ∀ l r, Q (node l r)) {n : Nat} {nodes : List D}
    (hQ : ∀ d ∈ nodes, Q d) : ∀ p ∈ pairsIn node n nodes, Q p.1 ∧ Q p.2 := by
  induction n generalizing nodes with
  | zero =>
    match nodes with
    | [] => simp [pairsIn]
    | [d] => simp [pairsIn]
    | l :: r :: rest => simp [pairsIn]
  | succ n ih =>
    match nodes, hQ with
    | [], _ => simp [pairsIn]
    | [d], _ => simp [pairsIn]
    | l :: r :: rest, hQ =>
      intro p hp
      rcases List.mem_append.1 hp with hp | hp
      · obtain ⟨h1, h2⟩ := mem_levelPairs hp
        exact ⟨hQ _ h1, hQ _ h2⟩
      · apply ih _ p hp
        intro d hd
        obtain ⟨q, -, rfl⟩ := List.mem_map.1 hd
        exact hnode q.1 q.2

end Merkle

end Vici2
