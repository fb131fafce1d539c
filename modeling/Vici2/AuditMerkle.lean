import Vici2.AuditVerifier
import Vici2.MerklePath
import Mathlib.Data.List.Nodup

/-! Inclusion proofs and roots of the audit rows. A row hash is its text of 64
hexadecimal digits; the two bytes `0` and `1` keep leaves and inner nodes
apart. -/

namespace Vici2

namespace Audit

structure InclusionProof where
  leafIndex : Nat
  treeSize : Nat
  path : List Bytes

structure InclusionProofHex where
  leafIndex : Nat
  treeSize : Nat
  path : List String

/-- The verifier takes a proof with buffers or one with hexadecimal texts. -/
abbrev AnyProof := InclusionProof ⊕ InclusionProofHex

def AnyProof.leafIndex : AnyProof → Nat
  | .inl proof => proof.leafIndex
  | .inr proof => proof.leafIndex

def AnyProof.siblings : AnyProof → List Bytes
  | .inl proof => proof.path
  | .inr proof => proof.path.map fromHex

def toBuffer : Bytes ⊕ String → Bytes
  | .inl buf => buf
  | .inr text => fromHex text

def proofToHex (proof : InclusionProof) : InclusionProofHex :=
  ⟨proof.leafIndex, proof.treeSize, proof.path.map toHex⟩

variable (H : Digest)

def buildWithProof (rowHashes : List String) (leafIndex : Int) :
    Except String (Bytes × InclusionProof) :=
  if rowHashes.length = 0 then .error "buildWithProof: empty tree"
  else if leafIndex < 0 ∨ rowHashes.length ≤ leafIndex then
    .error s!"buildWithProof: leafIndex {leafIndex} out of range 0..{rowHashes.length - 1}"
  else
    let leaves := rowHashes.map (leafHash H)
    let r := (Merkle.reduceWithProof (internalHash H) leaves leafIndex.toNat).getD
      (emptyRoot H, [])
    .ok (r.1, ⟨leafIndex.toNat, rowHashes.length, r.2⟩)

/-- Neither the tree size nor the length of the path is looked at. -/
def verifyInclusion (rowHash : String) (proof : AnyProof) (root : Bytes ⊕ String) : Bool :=
  Merkle.climb (internalHash H) proof.leafIndex (leafHash H rowHash) proof.siblings ==
    toBuffer root

/-- A digest as it is stored: 64 lower-case hexadecimal digits. -/
structure RowHash (s : String) : Prop where
  length_eq : s.toList.length = 64
  hex : ∀ c ∈ s.toList, c ∈ "0123456789abcdef".toList

theorem RowHash.toHex_fromHex {s : String} (h : RowHash s) : toHex (fromHex s) = s := by
  have heven : s.toList.length % 2 = 0 := by rw [h.length_eq]
  unfold toHex fromHex
  rw [hexChars_unhexChars heven h.hex, String.ofList_toList]

theorem RowHash.eq_of_fromHex_eq {s s' : String} (h : RowHash s) (h' : RowHash s')
    (heq : fromHex s = fromHex s') : s = s' := by
  rw [← h.toHex_fromHex, heq, h'.toHex_fromHex]

theorem RowHash.fromHex_ne_nil {s : String} (h : RowHash s) : fromHex s ≠ [] := by
  intro hnil
  have hlen := h.length_eq
  rw [← h.toHex_fromHex, hnil] at hlen
  simp [toHex, hexChars] at hlen

theorem rowHash_toHex {b : Bytes} (h : b.length = 32) : RowHash (toHex b) := by
  constructor
  · rw [toHex, String.toList_ofList, length_hexChars, h]
  · intro c hc
    rw [toHex, String.toList_ofList] at hc
    exact isHex_of_mem_hexChars hc

def NoCollision (inputs : List Bytes) : Prop :=
  ∀ x ∈ inputs, ∀ y ∈ inputs, H.hash x = H.hash y → x = y

/-- The inputs hashed on the way to the root of some row hashes. -/
def rootInputs (rowHashes : List String) : List Bytes :=
  [0] :: (rowHashes.map fun x => 0 :: fromHex x) ++
    (Merkle.hashedPairs (internalHash H) (rowHashes.map (leafHash H))).map
      fun p => 1 :: (p.1 ++ p.2)

/-- The inputs hashed while a proof is verified. -/
def proofInputs (rowHash : String) (proof : AnyProof) : List Bytes :=
  (0 :: fromHex rowHash) ::
    (Merkle.climbPairs (internalHash H) proof.leafIndex (leafHash H rowHash) proof.siblings).map
      fun p => 1 :: (p.1 ++ p.2)

variable {H}

theorem noCollision_of_nodup {inputs distinct : List Bytes} (hsub : inputs ⊆ distinct)
    (h : (distinct.map H.hash).Nodup) : NoCollision H inputs := by
  intro x hx y hy hxy
  exact List.inj_on_of_nodup_map h (hsub hx) (hsub hy) hxy

theorem NoCollision.append {inputs other : List Bytes} (h : NoCollision H inputs)
    (hsub : other ⊆ inputs) :
    NoCollision H (inputs ++ other) := by
  have hall : inputs ++ other ⊆ inputs := List.append_subset.2 ⟨List.Subset.refl _, hsub⟩
  exact fun x hx y hy => h x (hall hx) y (hall hy)

section Inputs

variable {inputs : List Bytes}

def RowInput (inputs : List Bytes) (x : String) : Prop :=
  RowHash x ∧ (0 :: fromHex x) ∈ inputs

def NodeInput (inputs : List Bytes) (l r : Bytes) : Prop :=
  l.length = 32 ∧ r.length = 32 ∧ (1 :: (l ++ r)) ∈ inputs

/-- A pair hashed by the verifier: the sibling may be of any length. -/
def JoinInput (inputs : List Bytes) (l r : Bytes) : Prop :=
  (l.length = 32 ∨ r.length = 32) ∧ (1 :: (l ++ r)) ∈ inputs

theorem NodeInput.joinInput {l r : Bytes} (h : NodeInput inputs l r) : JoinInput inputs l r :=
  ⟨Or.inl h.1, h.2.2⟩

theorem separated_of_noCollision (hfree : NoCollision H inputs) :
    Merkle.Separated (leafHash H) (internalHash H) (RowInput inputs) (NodeInput inputs)
      (RowInput inputs) (JoinInput inputs) := by
  have hleaf : ∀ x l r, (0 :: fromHex x) ∈ inputs → (1 :: (l ++ r)) ∈ inputs →
      leafHash H x ≠ internalHash H l r := by
    intro x l r hx hlr h
    have heq := hfree _ hx _ hlr h
    rw [List.cons.injEq] at heq
    exact absurd heq.1 (by decide)
  refine ⟨?_, ?_, ?_, ?_⟩
  · rintro x y ⟨hx, hxi⟩ ⟨hy, hyi⟩ h
    have heq := hfree _ hxi _ hyi h
    exact hx.eq_of_fromHex_eq hy (List.cons.inj heq).2
  · rintro l r l' r' ⟨hl, hr, hlr⟩ ⟨hside, hlr'⟩ h
    have heq := (List.cons.inj (hfree _ hlr _ hlr' h)).2
    -- the known side has 32 bytes, and so has the other: both texts have 64
    rcases hside with hl' | hr'
    · exact List.append_inj heq (hl.trans hl'.symm)
    · exact List.append_inj' heq (hr.trans hr'.symm)
  · rintro x l r ⟨-, hx⟩ ⟨-, hlr⟩ h
    exact hleaf x l r hx hlr h
  · rintro l r x ⟨-, -, hlr⟩ ⟨-, hx⟩ h
    exact hleaf x l r hx hlr h.symm

theorem collisionFree_of_noCollision (hfree : NoCollision H inputs) :
    Merkle.CollisionFree (leafHash H) (internalHash H) (RowInput inputs) (NodeInput inputs) :=
  (separated_of_noCollision hfree).collisionFree fun _ _ h => h.joinInput

theorem rowInput_of_mem {rowHashes : List String} (hrows : ∀ x ∈ rowHashes, RowHash x)
    (hsub : rootInputs H rowHashes ⊆ inputs) : ∀ x ∈ rowHashes, RowInput inputs x := by
  intro x hx
  refine ⟨hrows x hx, hsub ?_⟩
  apply List.mem_append_left
  exact List.mem_cons_of_mem _ (List.mem_map.2 ⟨x, hx, rfl⟩)

theorem nodeInput_of_mem {rowHashes : List String} (hsub : rootInputs H rowHashes ⊆ inputs) :
    ∀ p ∈ Merkle.hashedPairs (internalHash H) (rowHashes.map (leafHash H)),
      NodeInput inputs p.1 p.2 := by
  intro p hp
  have hlen : p.1.length = 32 ∧ p.2.length = 32 := by
    refine Merkle.forall_mem_pairsIn (Q := fun d : Bytes => d.length = 32)
      (fun l r => H.length_hash _) ?_ p hp
    intro d hd
    obtain ⟨x, -, rfl⟩ := List.mem_map.1 hd
    exact H.length_hash _
  refine ⟨hlen.1, hlen.2, hsub ?_⟩
  apply List.mem_append_right
  exact List.mem_map.2 ⟨p, hp, rfl⟩

/-- Each digest on the way up has 32 bytes, whatever the siblings are. -/
theorem length_of_mem_climbPairs {i : Nat} {d : Bytes} (hd : d.length = 32) {path : List Bytes} :
    ∀ p ∈ Merkle.climbPairs (internalHash H) i d path, p.1.length = 32 ∨ p.2.length = 32 := by
  induction path generalizing i d with
  | nil => simp [Merkle.climbPairs]
  | cons s path ih =>
    intro p hp
    rcases List.mem_cons.1 hp with rfl | hp
    · unfold Merkle.joinPair
      split
      · exact Or.inl hd
      · exact Or.inr hd
    · exact ih (H.length_hash _) p hp

theorem joinInput_of_mem {rowHash : String} {proof : AnyProof}
    (hsub : proofInputs H rowHash proof ⊆ inputs) :
    ∀ p ∈ Merkle.climbPairs (internalHash H) proof.leafIndex (leafHash H rowHash) proof.siblings,
      JoinInput inputs p.1 p.2 := by
  intro p hp
  refine ⟨length_of_mem_climbPairs (H.length_hash _) p hp, hsub ?_⟩
  exact List.mem_cons_of_mem _ (List.mem_map.2 ⟨p, hp, rfl⟩)

theorem covers_ne_emptyRoot (hfree : NoCollision H inputs) (hzero : [0] ∈ inputs) {d : Bytes}
    {xs : List String}
    (h : Merkle.Covers (leafHash H) (internalHash H) (RowInput inputs) (NodeInput inputs) d xs) :
    d ≠ emptyRoot H := by
  intro hd
  cases h with
  | leaf x hx =>
    have heq := hfree _ hx.2 _ hzero hd
    exact hx.1.fromHex_ne_nil (List.cons.inj heq).2
  | node hl hr hn =>
    have heq := hfree _ hn.2.2 _ hzero hd
    rw [List.cons.injEq] at heq
    exact absurd heq.1 (by decide)

theorem buildMerkleRoot_of_reduce {rowHashes : List String} {d : Bytes}
    (h : Merkle.reduce (internalHash H) (rowHashes.map (leafHash H)) = some d) :
    buildMerkleRoot H rowHashes = d := by
  unfold buildMerkleRoot
  rw [h]
  rfl

theorem reduce_leaves {rowHashes : List String} (hne : rowHashes ≠ []) :
    Merkle.reduce (internalHash H) (rowHashes.map (leafHash H)) =
      some (buildMerkleRoot H rowHashes) := by
  have hsome : ∃ d, Merkle.reduce (internalHash H) (rowHashes.map (leafHash H)) = some d :=
    Merkle.reduce_isSome (by simpa using hne)
  obtain ⟨d, hd⟩ := hsome
  rw [hd, buildMerkleRoot_of_reduce hd]

theorem root_ne_emptyRoot (hfree : NoCollision H inputs) {xs : List String} (hne : xs ≠ [])
    (hxs : ∀ x ∈ xs, RowHash x) (hsub : rootInputs H xs ⊆ inputs) :
    buildMerkleRoot H xs ≠ emptyRoot H := by
  have hzero : [0] ∈ inputs := hsub List.mem_cons_self
  obtain ⟨k, hperfect⟩ :=
    Merkle.perfect_reduce (reduce_leaves hne) (rowInput_of_mem hxs hsub) (nodeInput_of_mem hsub)
  exact covers_ne_emptyRoot hfree hzero hperfect.covers

/-- The root decides the leaves of the padded tree. -/
theorem root_eq_iff (hfree : NoCollision H inputs) {xs ys : List String}
    (hxs : ∀ x ∈ xs, RowHash x) (hys : ∀ y ∈ ys, RowHash y) (hx : rootInputs H xs ⊆ inputs)
    (hy : rootInputs H ys ⊆ inputs) :
    buildMerkleRoot H xs = buildMerkleRoot H ys ↔ Merkle.expand xs = Merkle.expand ys := by
  by_cases hxe : xs = []
  · by_cases hye : ys = []
    · rw [hxe, hye]
      exact iff_of_true rfl rfl
    · refine iff_of_false ?_ ?_
      · intro h
        rw [hxe] at h
        exact root_ne_emptyRoot hfree hye hys hy h.symm
      · intro h
        rw [hxe, Merkle.expand_nil] at h
        exact hye (Merkle.expand_eq_nil_iff.1 h.symm)
  · by_cases hye : ys = []
    · refine iff_of_false ?_ ?_
      · intro h
        rw [hye] at h
        exact root_ne_emptyRoot hfree hxe hxs hx h
      · intro h
        rw [hye, Merkle.expand_nil] at h
        exact hxe (Merkle.expand_eq_nil_iff.1 h)
    · exact Merkle.reduce_eq_iff (collisionFree_of_noCollision hfree) (reduce_leaves hxe)
        (reduce_leaves hye) (rowInput_of_mem hxs hx) (rowInput_of_mem hys hy)
        (nodeInput_of_mem hx) (nodeInput_of_mem hy)

end Inputs

theorem buildWithProof_complete {rowHashes : List String} {i : Nat} (hi : i < rowHashes.length) :
    ∃ proof, buildWithProof H rowHashes i = .ok (buildMerkleRoot H rowHashes, proof) ∧
      proof.leafIndex = i ∧
      Merkle.climb (internalHash H) i (leafHash H rowHashes[i]) proof.path =
        buildMerkleRoot H rowHashes := by
  have hne : rowHashes ≠ [] := List.ne_nil_of_length_pos (by omega)
  have hleaf : (rowHashes.map (leafHash H))[i]? = some (leafHash H rowHashes[i]) := by
    rw [List.getElem?_map, List.getElem?_eq_getElem hi]
    rfl
  obtain ⟨path, hpath, hclimb⟩ := Merkle.climb_reduceWithProof hleaf (reduce_leaves hne)
  refine ⟨⟨i, rowHashes.length, path⟩, ?_, rfl, hclimb⟩
  unfold buildWithProof
  rw [if_neg (by omega), if_neg (by omega), Int.toNat_natCast]
  simp only [hpath, Option.getD_some]

theorem siblings_proofToHex (proof : InclusionProof) :
    AnyProof.siblings (.inr (proofToHex proof)) = proof.path := by
  show (proof.path.map toHex).map fromHex = proof.path
  rw [List.map_map]
  have hid : fromHex ∘ toHex = id := funext fromHex_toHex
  rw [hid, List.map_id]

theorem inclusion_proofs_exact {rowHashes : List String} (hrows : ∀ x ∈ rowHashes, RowHash x) :
    (∀ (i : Nat) (hi : i < rowHashes.length), ∃ proof,
      buildWithProof H rowHashes i = .ok (buildMerkleRoot H rowHashes, proof) ∧
      verifyInclusion H rowHashes[i] (.inl proof) (.inl (buildMerkleRoot H rowHashes)) = true ∧
      verifyInclusion H rowHashes[i] (.inr (proofToHex proof))
        (.inl (buildMerkleRoot H rowHashes)) = true) ∧
    ∀ (proof : AnyProof) (hi : proof.leafIndex < rowHashes.length) (h : String), RowHash h →
      NoCollision H (rootInputs H rowHashes ++ proofInputs H h proof) →
      verifyInclusion H h proof (.inl (buildMerkleRoot H rowHashes)) = true →
      h = rowHashes[proof.leafIndex] := by
  constructor
  · intro i hi
    obtain ⟨proof, hbuild, rfl, hclimb⟩ := buildWithProof_complete (H := H) hi
    refine ⟨proof, hbuild, beq_iff_eq.2 hclimb, ?_⟩
    unfold verifyInclusion
    rw [siblings_proofToHex]
    exact beq_iff_eq.2 hclimb
  · intro proof hi h hh hfree hverify
    have hne : rowHashes ≠ [] := List.ne_nil_of_length_pos (by omega)
    have hroot : rootInputs H rowHashes ⊆ rootInputs H rowHashes ++ proofInputs H h proof :=
      List.subset_append_left _ _
    have hproof : proofInputs H h proof ⊆ rootInputs H rowHashes ++ proofInputs H h proof :=
      List.subset_append_right _ _
    have hleaf : RowInput (rootInputs H rowHashes ++ proofInputs H h proof) h :=
      ⟨hh, hproof List.mem_cons_self⟩
    have hget := Merkle.leaf_of_climb_reduce (separated_of_noCollision hfree) (reduce_leaves hne)
      (rowInput_of_mem hrows hroot) (nodeInput_of_mem hroot) hi hleaf (joinInput_of_mem hproof)
      (beq_iff_eq.1 hverify)
    rw [List.getElem?_eq_getElem hi] at hget
    exact (Option.some.inj hget).symm

def firstRow : String := "0000000000000000000000000000000000000000000000000000000000000000"

def secondRow : String := "0101010101010101010101010101010101010101010101010101010101010101"

def thirdRow : String := "0202020202020202020202020202020202020202020202020202020202020202"

def threeRows : List String := [firstRow, secondRow, thirdRow]

def repeatedRows : List String := [firstRow, secondRow, thirdRow, thirdRow]

/-- The proof of the third row: its own leaf, repeated, and the node of the first two. -/
def thirdRowProof (H : Digest) : InclusionProof :=
  ⟨2, 3, [leafHash H thirdRow, internalHash H (leafHash H firstRow) (leafHash H secondRow)]⟩

theorem rowHash_of_all {s : String} (hlen : s.toList.length = 64)
    (hhex : (s.toList.all fun c => "0123456789abcdef".toList.elem c) = true) : RowHash s := by
  refine ⟨hlen, fun c hc => ?_⟩
  exact List.elem_iff.1 (List.all_eq_true.1 hhex c hc)

theorem rowHash_threeRows : ∀ x ∈ threeRows, RowHash x := by
  have hfirst : RowHash firstRow := rowHash_of_all (by decide) (by decide +kernel)
  have hsecond : RowHash secondRow := rowHash_of_all (by decide) (by decide +kernel)
  have hthird : RowHash thirdRow := rowHash_of_all (by decide) (by decide +kernel)
  simp [threeRows, hfirst, hsecond, hthird]

theorem rowHash_repeatedRows : ∀ x ∈ repeatedRows, RowHash x := by
  intro x hx
  apply rowHash_threeRows x
  simpa [repeatedRows, threeRows] using hx

theorem hashedPairs_threeRows (H : Digest) :
    Merkle.hashedPairs (internalHash H) (threeRows.map (leafHash H)) =
      (leafHash H firstRow, leafHash H secondRow) ::
        Merkle.climbPairs (internalHash H) 2 (leafHash H thirdRow) (thirdRowProof H).path := by
  simp [threeRows, thirdRowProof, Merkle.hashedPairs, Merkle.pairsIn, Merkle.nextLevel,
    Merkle.levelPairs, Merkle.padEven, Merkle.pairUp, Merkle.climbPairs, Merkle.joinPair,
    Merkle.join]

theorem hashedPairs_repeatedRows (H : Digest) :
    Merkle.hashedPairs (internalHash H) (repeatedRows.map (leafHash H)) =
      Merkle.hashedPairs (internalHash H) (threeRows.map (leafHash H)) := by
  simp [threeRows, repeatedRows, Merkle.hashedPairs, Merkle.pairsIn, Merkle.nextLevel,
    Merkle.levelPairs, Merkle.padEven, Merkle.pairUp]

theorem climb_thirdRow (H : Digest) :
    Merkle.climb (internalHash H) 2 (leafHash H thirdRow) (thirdRowProof H).path =
      buildMerkleRoot H threeRows := by
  simp [buildMerkleRoot, threeRows, thirdRowProof, Merkle.reduce, Merkle.reduceIn,
    Merkle.nextLevel, Merkle.levelPairs, Merkle.padEven, Merkle.pairUp, Merkle.climb,
    Merkle.joinPair, Merkle.join]

theorem buildMerkleRoot_repeatedRows (H : Digest) :
    buildMerkleRoot H threeRows = buildMerkleRoot H repeatedRows := by
  simp [buildMerkleRoot, threeRows, repeatedRows, Merkle.reduce, Merkle.reduceIn,
    Merkle.nextLevel, Merkle.levelPairs, Merkle.padEven, Merkle.pairUp]

theorem rootInputs_repeatedRows (H : Digest) :
    rootInputs H repeatedRows ⊆ rootInputs H threeRows := by
  unfold rootInputs
  rw [hashedPairs_repeatedRows]
  have hleaves : ([0] :: repeatedRows.map fun x => 0 :: fromHex x) ⊆
      [0] :: threeRows.map fun x => 0 :: fromHex x := by
    simp [repeatedRows, threeRows]
  exact List.append_subset.2
    ⟨List.subset_append_of_subset_left _ hleaves, List.subset_append_right _ _⟩

theorem proofInputs_thirdRow (H : Digest) :
    proofInputs H thirdRow (.inl (thirdRowProof H)) ⊆ rootInputs H threeRows := by
  have hpath : AnyProof.siblings (.inl (thirdRowProof H)) = (thirdRowProof H).path := rfl
  have hindex : AnyProof.leafIndex (.inl (thirdRowProof H)) = 2 := rfl
  unfold rootInputs proofInputs
  rw [hashedPairs_threeRows, hpath, hindex, List.map_cons]
  refine List.cons_subset.2 ⟨?_, ?_⟩
  · simp [threeRows]
  · exact List.subset_append_of_subset_right _ (List.subset_cons_self _ _)

theorem noCollision_threeRows : NoCollision sha256 (rootInputs sha256 threeRows) := by
  apply noCollision_of_nodup (List.Subset.refl _)
  decide +kernel

theorem third_row_proved :
    (∃ proof, buildWithProof sha256 threeRows 2 = .ok (buildMerkleRoot sha256 threeRows, proof) ∧
      verifyInclusion sha256 thirdRow (.inl proof) (.inl (buildMerkleRoot sha256 threeRows)) = true ∧
      verifyInclusion sha256 thirdRow (.inr (proofToHex proof))
        (.inl (buildMerkleRoot sha256 threeRows)) = true) ∧
    thirdRow = threeRows[(thirdRowProof sha256).leafIndex] := by
  have hexact := inclusion_proofs_exact (H := sha256) rowHash_threeRows
  refine ⟨hexact.1 2 (by decide), ?_⟩
  apply hexact.2 (.inl (thirdRowProof sha256)) (by decide) thirdRow
  · exact rowHash_threeRows _ (by simp [threeRows])
  · exact noCollision_threeRows.append (proofInputs_thirdRow _)
  · exact beq_iff_eq.2 (climb_thirdRow _)

theorem same_root_iff_same_padding {xs ys : List String} (hxs : ∀ x ∈ xs, RowHash x)
    (hys : ∀ y ∈ ys, RowHash y) (hfree : NoCollision H (rootInputs H xs ++ rootInputs H ys)) :
    (buildMerkleRoot H xs = buildMerkleRoot H ys ↔ Merkle.expand xs = Merkle.expand ys) ∧
      (buildMerkleRoot H xs = buildMerkleRoot H ys → xs.length = ys.length → xs = ys) ∧
      (buildMerkleRoot H xs = buildMerkleRoot H ys → (xs = [] ↔ ys = [])) := by
  have hiff : buildMerkleRoot H xs = buildMerkleRoot H ys ↔ Merkle.expand xs = Merkle.expand ys :=
    root_eq_iff hfree hxs hys (List.subset_append_left _ _) (List.subset_append_right _ _)
  refine ⟨hiff, fun hroot hlen => Merkle.eq_of_expand_eq (hiff.1 hroot) hlen, fun hroot => ?_⟩
  rw [← Merkle.expand_eq_nil_iff, hiff.1 hroot, Merkle.expand_eq_nil_iff]

theorem repeated_rows_padded_alike :
    (buildMerkleRoot sha256 threeRows = buildMerkleRoot sha256 repeatedRows ↔
      Merkle.expand threeRows = Merkle.expand repeatedRows) ∧
    (buildMerkleRoot sha256 threeRows = buildMerkleRoot sha256 repeatedRows →
      threeRows.length = repeatedRows.length → threeRows = repeatedRows) ∧
    (buildMerkleRoot sha256 threeRows = buildMerkleRoot sha256 repeatedRows →
      (threeRows = [] ↔ repeatedRows = [])) :=
  same_root_iff_same_padding rowHash_threeRows rowHash_repeatedRows
    (noCollision_threeRows.append (rootInputs_repeatedRows _))

theorem repeated_row_keeps_root :
    (∀ x ∈ threeRows, RowHash x) ∧ (∀ x ∈ repeatedRows, RowHash x) ∧
      NoCollision sha256 (rootInputs sha256 threeRows ++ rootInputs sha256 repeatedRows) ∧
      buildMerkleRoot sha256 threeRows = buildMerkleRoot sha256 repeatedRows ∧
      threeRows ≠ repeatedRows :=
  ⟨rowHash_threeRows, rowHash_repeatedRows,
    noCollision_threeRows.append (rootInputs_repeatedRows _),
    buildMerkleRoot_repeatedRows _, by decide⟩

end Audit

end Vici2
