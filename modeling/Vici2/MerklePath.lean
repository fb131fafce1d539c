import Vici2.MerkleTree
import Mathlib.Data.List.Induction

/-! The siblings from a leaf up to the root. The path gathered while a tree is
reduced leads back to its root; a path that leads to the root from some leaf has
the height of the tree and starts at the leaf its index names. -/

namespace Vici2

namespace Merkle

variable {α D : Type*} (node : D → D → D)

def siblingIdx (i : Nat) : Nat := if i % 2 = 0 then i + 1 else i - 1

def reduceWithProofIn : Nat → List D → Nat → Option (D × List D)
  | _, [], _ => none
  | _, [d], _ => some (d, [])
  | 0, _, _ => none
  | n + 1, nodes, i =>
    (reduceWithProofIn n (nextLevel node nodes) (i / 2)).map fun r =>
      (r.1, (padEven nodes)[siblingIdx i]?.toList ++ r.2)

def reduceWithProof (nodes : List D) (i : Nat) : Option (D × List D) :=
  reduceWithProofIn node nodes.length nodes i

/-- A node with index `i` and its sibling, in the order they are hashed. -/
def joinPair (i : Nat) (d s : D) : D × D := if i % 2 = 0 then (d, s) else (s, d)

def join (i : Nat) (d s : D) : D := node (joinPair i d s).1 (joinPair i d s).2

def climb : Nat → D → List D → D
  | _, d, [] => d
  | i, d, s :: path => climb (i / 2) (join node i d s) path

def climbPairs : Nat → D → List D → List (D × D)
  | _, _, [] => []
  | i, d, s :: path => joinPair i d s :: climbPairs (i / 2) (join node i d s) path

variable {node}

section Complete

theorem getElem?_padEven {nodes : List D} {i : Nat} {d : D} (hi : nodes[i]? = some d) :
    (padEven nodes)[i]? = some d := by
  obtain ⟨ext, hext⟩ := padEven_eq_append nodes
  have hlt : i < nodes.length := (List.getElem?_eq_some_iff.1 hi).1
  rw [hext, List.getElem?_append_left hlt, hi]

theorem getElem?_sibling {nodes : List D} {i : Nat} (heven : nodes.length % 2 = 0)
    (hi : i < nodes.length) : ∃ s, nodes[siblingIdx i]? = some s := by
  have hlt : siblingIdx i < nodes.length := by
    unfold siblingIdx
    split <;> omega
  exact ⟨nodes[siblingIdx i], List.getElem?_eq_getElem hlt⟩

theorem getElem?_pairUp {nodes : List D} {i : Nat} {d s : D} (hi : nodes[i]? = some d)
    (hs : nodes[siblingIdx i]? = some s) : (pairUp nodes)[i / 2]? = some (joinPair i d s) := by
  induction nodes using pairUp.induct generalizing i with
  | case1 l r rest ih =>
    obtain _ | _ | i := i
    · obtain rfl : l = d := by simpa using hi
      obtain rfl : r = s := by simpa [siblingIdx] using hs
      rfl
    · obtain rfl : r = d := by simpa using hi
      obtain rfl : l = s := by simpa [siblingIdx] using hs
      rfl
    · have hhalf : (i + 2) / 2 = i / 2 + 1 := by omega
      have hsib : siblingIdx (i + 2) = siblingIdx i + 2 := by
        unfold siblingIdx
        split <;> split <;> omega
      have hjoin : joinPair (i + 2) d s = joinPair i d s := by
        unfold joinPair
        rw [Nat.add_mod_right]
      rw [hsib] at hs
      rw [hhalf, hjoin]
      exact ih hi hs
  | case2 nodes hne =>
    obtain _ | ⟨e, _ | ⟨r, rest⟩⟩ := nodes
    · simp at hi
    · have hzero : i = 0 := by
        have hlt := (List.getElem?_eq_some_iff.1 hi).1
        simpa using hlt
      rw [hzero] at hs
      simp [siblingIdx] at hs
    · exact absurd rfl (hne e r rest)

/-- One level: a node has a sibling, and joined they are the node above. -/
theorem getElem?_nextLevel {nodes : List D} {i : Nat} {d : D} (hi : nodes[i]? = some d) :
    ∃ s, (padEven nodes)[siblingIdx i]? = some s ∧
      (nextLevel node nodes)[i / 2]? = some (join node i d s) := by
  have hpad := getElem?_padEven hi
  have hlt := (List.getElem?_eq_some_iff.1 hpad).1
  obtain ⟨s, hs⟩ := getElem?_sibling (length_padEven_even nodes) hlt
  have hpair : (levelPairs nodes)[i / 2]? = some (joinPair i d s) := getElem?_pairUp hpad hs
  refine ⟨s, hs, ?_⟩
  unfold nextLevel
  rw [List.getElem?_map, hpair]
  rfl

theorem climb_single {n : Nat} {e : D} {i : Nat} {d root : D} (hi : [e][i]? = some d)
    (hroot : reduceIn node n [e] = some root) :
    ∃ path, reduceWithProofIn node n [e] i = some (root, path) ∧ climb node i d path = root := by
  have hreduce : reduceIn node n [e] = some e := by
    cases n with
    | zero => rfl
    | succ n => rfl
  have hproof : reduceWithProofIn node n [e] i = some (e, []) := by
    cases n with
    | zero => rfl
    | succ n => rfl
  obtain rfl : e = root := Option.some.inj (hreduce.symm.trans hroot)
  have hzero : i = 0 := by
    have hlt := (List.getElem?_eq_some_iff.1 hi).1
    simpa using hlt
  obtain rfl : e = d := by simpa [hzero] using hi
  exact ⟨[], hproof, rfl⟩

theorem climb_reduceWithProofIn {n : Nat} {nodes : List D} {i : Nat} {d root : D}
    (hi : nodes[i]? = some d) (hroot : reduceIn node n nodes = some root) :
    ∃ path, reduceWithProofIn node n nodes i = some (root, path) ∧
      climb node i d path = root := by
  induction n generalizing nodes i d with
  | zero =>
    obtain _ | ⟨e, _ | ⟨r, rest⟩⟩ := nodes
    · simp at hi
    · exact climb_single hi hroot
    · cases hroot
  | succ n ih =>
    obtain _ | ⟨e, _ | ⟨r, rest⟩⟩ := nodes
    · simp at hi
    · exact climb_single hi hroot
    · obtain ⟨s, hs, hup⟩ := @getElem?_nextLevel D node _ _ _ hi
      obtain ⟨path, hpath, hclimb⟩ := ih hup hroot
      refine ⟨s :: path, ?_, hclimb⟩
      simp only [reduceWithProofIn, hpath, hs]
      rfl

theorem climb_reduceWithProof {nodes : List D} {i : Nat} {d root : D} (hi : nodes[i]? = some d)
    (hroot : reduce node nodes = some root) :
    ∃ path, reduceWithProof node nodes i = some (root, path) ∧ climb node i d path = root :=
  climb_reduceWithProofIn hi hroot

end Complete

section Sound

theorem climb_append (i : Nat) (d : D) (path : List D) (s : D) :
    climb node i d (path ++ [s]) = join node (i / 2 ^ path.length) (climb node i d path) s := by
  induction path generalizing i d with
  | nil => simp [climb]
  | cons t path ih =>
    rw [List.cons_append, climb, ih, Nat.div_div_eq_div_mul, List.length_cons, Nat.pow_succ']
    rfl

theorem climbPairs_append (i : Nat) (d : D) (path : List D) (s : D) :
    climbPairs node i d (path ++ [s]) =
      climbPairs node i d path ++ [joinPair (i / 2 ^ path.length) (climb node i d path) s] := by
  induction path generalizing i d with
  | nil => simp [climbPairs, climb]
  | cons t path ih =>
    rw [List.cons_append, climbPairs, ih, Nat.div_div_eq_div_mul, List.length_cons, Nat.pow_succ']
    rfl

variable {leaf : α → D} {L : α → Prop} {N : D → D → Prop} {L' : α → Prop} {N' : D → D → Prop}

theorem mod_two_pow_succ (i k : Nat) :
    i % 2 ^ (k + 1) = i % 2 ^ k + 2 ^ k * (i / 2 ^ k % 2) := by
  rw [Nat.pow_succ, Nat.mod_mul]

/-- A climb that ends at the root of a perfect tree went through its nodes. By
induction on the path from the root end: each join is the node one level down. -/
theorem Perfect.climb_eq (hsep : Separated leaf node L N L' N') {k : Nat} {root : D} {xs : List α}
    (h : Perfect leaf node L N k root xs) {i : Nat} {y : α} (hy : L' y) {path : List D}
    (hN : ∀ p ∈ climbPairs node i (leaf y) path, N' p.1 p.2)
    (hroot : climb node i (leaf y) path = root) :
    path.length = k ∧ xs[i % 2 ^ k]? = some y := by
  induction path using List.reverseRecOn generalizing k root xs with
  | nil =>
    cases h with
    | leaf x hx =>
      obtain rfl := hsep.leaf_inj x y hx hy hroot.symm
      exact ⟨rfl, by simp [Nat.mod_one]⟩
    | node hl hr hn => exact absurd hroot.symm (hsep.node_ne_leaf _ _ _ hn hy)
  | append_singleton path s ih =>
    rw [climbPairs_append] at hN
    rw [climb_append] at hroot
    have hlast := hN _ (List.mem_append_right _ (List.mem_singleton_self _))
    have hpath : ∀ p ∈ climbPairs node i (leaf y) path, N' p.1 p.2 :=
      fun p hp => hN p (List.mem_append_left _ hp)
    cases h with
    | leaf x hx => exact absurd hroot.symm (hsep.leaf_ne_node _ _ _ hx hlast)
    | @node k l r a b hl hr hn =>
      obtain ⟨hleft, hright⟩ := hsep.node_inj _ _ _ _ hn hlast hroot.symm
      rw [mod_two_pow_succ]
      rcases Nat.mod_two_eq_zero_or_one (i / 2 ^ path.length) with hbit | hbit
      · have hchild : climb node i (leaf y) path = l := by
          rw [hleft, joinPair, if_pos hbit]
        obtain ⟨hlen, hget⟩ := ih hl hpath hchild
        rw [hlen] at hbit
        have hlt : i % 2 ^ k < a.length := (List.getElem?_eq_some_iff.1 hget).1
        refine ⟨by rw [List.length_append, hlen]; rfl, ?_⟩
        rw [hbit, Nat.mul_zero, Nat.add_zero, List.getElem?_append_left hlt, hget]
      · have hchild : climb node i (leaf y) path = r := by
          rw [hright, joinPair, if_neg (by omega)]
        obtain ⟨hlen, hget⟩ := ih hr hpath hchild
        rw [hlen] at hbit
        refine ⟨by rw [List.length_append, hlen]; rfl, ?_⟩
        rw [hbit, Nat.mul_one, Nat.add_comm, ← hl.length_eq,
          List.getElem?_append_right (Nat.le_add_right _ _), Nat.add_sub_cancel_left, hl.length_eq,
          hget]

/-- A path that leads from a leaf to the root of a tree starts at the leaf its
index names, if the index is none of the padding. -/
theorem leaf_of_climb_reduce (hsep : Separated leaf node L N L' N') {xs : List α} {root : D}
    (hroot : reduce node (xs.map leaf) = some root) (hL : ∀ x ∈ xs, L x)
    (hN : ∀ p ∈ hashedPairs node (xs.map leaf), N p.1 p.2) {i : Nat} (hi : i < xs.length) {y : α}
    (hy : L' y) {path : List D} (hN' : ∀ p ∈ climbPairs node i (leaf y) path, N' p.1 p.2)
    (hclimb : climb node i (leaf y) path = root) : xs[i]? = some y := by
  obtain ⟨k, hperfect⟩ := perfect_reduce hroot hL hN
  obtain ⟨ext, heq⟩ := expand_prefix xs
  have hlt : i < 2 ^ k := by
    rw [← hperfect.length_eq, ← heq, List.length_append]
    omega
  have hget := (hperfect.climb_eq hsep hy hN' hclimb).2
  rw [Nat.mod_eq_of_lt hlt, ← heq, List.getElem?_append_left hi] at hget
  exact hget

end Sound

end Merkle

end Vici2
