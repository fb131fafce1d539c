import Vici2.AuditMerkle
import Vici2.AuditTrigger
import Mathlib.Data.List.Nodup

/-! Tamper evidence of an attested day. The Merkle root alone leaves room for
rows repeated at the end of the list; the row hashes and the links between the
rows exclude that, as long as no two of the inputs hashed collide. -/

namespace Vici2

namespace Audit

variable {ν : Type} (F : NumberTexts ν) (H : Digest) {t : AuditTable}

def SepFree (s : String) : Prop := ∀ c ∈ s.toList, c ≠ sep

instance (s : String) : Decidable (SepFree s) :=
  List.decidableBAll (fun c => c ≠ sep) s.toList

theorem chainFields_inj {p p' table : String} {m m' i i' : Nat} {f f' : List Char}
    {rest rest' : List (List Char)} (hp : SepFree p) (hp' : SepFree p') (ht : SepFree table)
    (h : joinSep (chainFields p m table i (f :: rest)) =
      joinSep (chainFields p' m' table i' (f' :: rest'))) : p = p' ∧ i = i' := by
  rw [joinSep_inj] at h
  unfold chainFields at h
  simp only [joinWith_sep_cons] at h
  obtain ⟨hpp, h⟩ := append_sep_inj hp hp' h
  obtain ⟨-, h⟩ := append_sep_inj (lpad20_ne_sep m) (lpad20_ne_sep m') h
  obtain ⟨-, h⟩ := append_sep_inj ht ht h
  obtain ⟨hii, -⟩ := append_sep_inj (lpad20_ne_sep i) (lpad20_ne_sep i') h
  exact ⟨String.toList_inj.1 hpp, lpad20_inj hii⟩

theorem canonicalRow_inj {r r' : AuditRow ν t} (hp : SepFree r.prevHash)
    (hp' : SepFree r'.prevHash) (h : canonicalRow F r = canonicalRow F r') :
    r.prevHash = r'.prevHash ∧ r.id = r'.id := by
  cases t with
  | auditLog => exact chainFields_inj hp hp' (by decide) h
  | callWindowAudit => exact chainFields_inj hp hp' (by decide) h
  | originateAudit => exact chainFields_inj hp hp' (by decide) h
  | consentLog => exact chainFields_inj hp hp' (by decide) h
  | dncSyncLog => exact chainFields_inj hp hp' (by decide) h

def rowInput (r : AuditRow ν t) : Bytes := utf8 (canonicalRow F r)

/-- The inputs hashed on the way to the Merkle root of some rows. -/
def treeInputs (rows : List (AuditRow ν t)) : List Bytes :=
  [0] :: (rows.map fun r => 0 :: fromHex r.rowHash) ++
    (Merkle.hashedPairs (internalHash H) (rows.map fun r => leafHash H r.rowHash)).map
      fun p => 1 :: (p.1 ++ p.2)

/-- The rows of a tenant, each linked to the one before and hashed as the verifiers recompute
it. -/
structure HonestChain (rows : List (AuditRow ν t)) : Prop where
  ids : rows.Pairwise fun a b => a.id < b.id
  hashed : ∀ r ∈ rows, r.rowHash = recomputeRowHash F H r
  start : ∀ r ∈ rows.head?, r.prevHash = zeroHash
  linked : rows.IsChain Linked

/-- Everything hashed for the honest rows of a day, their chain and other rows. -/
def evidenceInputs (chain honest other : List (AuditRow ν t)) : List Bytes :=
  chain.map (rowInput F) ++ other.map (rowInput F) ++ treeInputs H honest ++ treeInputs H other

variable {F H}

theorem sepFree_hashText (s : String) : SepFree (hashText H s) := by
  intro c hc
  have hhex : c ∈ hexChars (H.hash (utf8 s)) := by simpa [hashText, toHex] using hc
  have hne : ∀ d ∈ "0123456789abcdef".toList, d ≠ sep :=
    List.all_iff_forall_prop.1 (by decide)
  exact hne c (isHex_of_mem_hexChars hhex)

theorem treeInputs_eq (rows : List (AuditRow ν t)) :
    treeInputs H rows = rootInputs H (rows.map AuditRow.rowHash) := by
  unfold treeInputs rootInputs
  rw [List.map_map, List.map_map]
  rfl

theorem canonicalRow_eq_of_hash_eq {inputs : List Bytes} (hfree : NoCollision H inputs)
    {r r' : AuditRow ν t} (hr : rowInput F r ∈ inputs) (hr' : rowInput F r' ∈ inputs)
    (h : recomputeRowHash F H r = recomputeRowHash F H r') :
    canonicalRow F r = canonicalRow F r' := by
  have hdigest : H.hash (rowInput F r) = H.hash (rowInput F r') := toHex_inj h
  exact utf8_inj (hfree _ hr _ hr' hdigest)

theorem rowHash_hashText (s : String) : RowHash (hashText H s) := rowHash_toHex (H.length_hash _)

theorem HonestChain.prev_cases {rows : List (AuditRow ν t)} (hc : HonestChain F H rows)
    {r : AuditRow ν t} (hr : r ∈ rows) :
    r.prevHash = zeroHash ∨ ∃ p ∈ rows, p.id < r.id ∧ r.prevHash = p.rowHash := by
  obtain ⟨l, l', rfl⟩ := List.append_of_mem hr
  rcases List.eq_nil_or_concat' l with rfl | ⟨l₁, p, rfl⟩
  · exact Or.inl (hc.start r rfl)
  · right
    have hids := hc.ids
    have hlinked := hc.linked
    rw [List.append_assoc] at hids hlinked
    refine ⟨p, by simp, ?_, ?_⟩
    · have hpr := (List.pairwise_append.1 hids).2.1
      exact (List.pairwise_cons.1 hpr).1 r (by simp)
    · have hpr := (List.isChain_append.1 hlinked).2.1
      exact (List.isChain_cons_cons.1 hpr).1

theorem HonestChain.sepFree {rows : List (AuditRow ν t)} (hc : HonestChain F H rows)
    {r : AuditRow ν t} (hr : r ∈ rows) : SepFree r.prevHash := by
  rcases hc.prev_cases hr with h | ⟨p, hp, -, h⟩
  · rw [h]
    decide
  · rw [h, hc.hashed p hp]
    exact sepFree_hashText _

theorem map_eq_map_of_inj {α β γ δ : Type*} {f : α → γ} {g : β → γ} {u : α → δ} {v : β → δ}
    {l : List α} {l' : List β} (h : l.map f = l'.map g)
    (hinj : ∀ x ∈ l, ∀ y ∈ l', f x = g y → u x = v y) : l.map u = l'.map v := by
  induction l generalizing l' with
  | nil =>
    have hnil : l' = [] := by simpa using h.symm
    rw [hnil]
    rfl
  | cons x l ih =>
    cases l' with
    | nil => simp at h
    | cons y l' =>
      rw [List.map_cons, List.map_cons, List.cons.injEq] at h
      rw [List.map_cons, List.map_cons, hinj x List.mem_cons_self y List.mem_cons_self h.1,
        ih h.2 fun a ha b hb => hinj a (List.mem_cons_of_mem _ ha) b (List.mem_cons_of_mem _ hb)]

section Evidence

variable {chain honest other : List (AuditRow ν t)}

theorem rowInput_mem_chain {r : AuditRow ν t} (hr : r ∈ chain) :
    rowInput F r ∈ evidenceInputs F H chain honest other := by
  unfold evidenceInputs
  simp only [List.mem_append, List.mem_map]
  exact Or.inl (Or.inl (Or.inl ⟨r, hr, rfl⟩))

theorem rowInput_mem_other {r : AuditRow ν t} (hr : r ∈ other) :
    rowInput F r ∈ evidenceInputs F H chain honest other := by
  unfold evidenceInputs
  simp only [List.mem_append, List.mem_map]
  exact Or.inl (Or.inl (Or.inr ⟨r, hr, rfl⟩))

theorem id_eq_of_rowHash_eq (hc : HonestChain F H chain)
    (hfree : NoCollision H (evidenceInputs F H chain honest other)) {p r : AuditRow ν t}
    (hp : p ∈ chain) (hr : r ∈ chain) (h : p.rowHash = r.rowHash) : p.id = r.id := by
  rw [hc.hashed p hp, hc.hashed r hr] at h
  have hcanon := canonicalRow_eq_of_hash_eq hfree (rowInput_mem_chain hp) (rowInput_mem_chain hr) h
  exact (canonicalRow_inj F (hc.sepFree hp) (hc.sepFree hr) hcanon).2

theorem nodup_rowHash (hc : HonestChain F H chain) (hsub : honest.Sublist chain)
    (hfree : NoCollision H (evidenceInputs F H chain honest other)) :
    (honest.map AuditRow.rowHash).Nodup := by
  rw [List.Nodup, List.pairwise_map]
  have hids := hc.ids.sublist hsub
  refine hids.imp_of_mem ?_
  intro p r hp hr hlt h
  have heq := id_eq_of_rowHash_eq hc hfree (hsub.subset hp) (hsub.subset hr) h
  omega

/-- No row follows the last honest one: it would repeat an honest row, whose
link would then go to that last row. -/
theorem not_repeated (hc : HonestChain F H chain) (hsub : honest.Sublist chain)
    (hfree : NoCollision H (evidenceInputs F H chain honest other))
    (hzero : ∀ r ∈ honest, recomputeRowHash F H r ≠ zeroHash)
    (hsep : ∀ r ∈ other, SepFree r.prevHash)
    (hrow : ∀ r ∈ other, r.rowHash = recomputeRowHash F H r) (hpass : other.IsChain Passes)
    {ext : List String} (h : other.map AuditRow.rowHash = honest.map AuditRow.rowHash ++ ext)
    (hext : ∀ z ∈ ext, z ∈ honest.map AuditRow.rowHash) : ext = [] := by
  obtain ⟨front, back, rfl, hfront, hback⟩ := List.map_eq_append_iff.1 h
  cases back with
  | nil => exact hback.symm
  | cons b back =>
    exfalso
    have hb : b ∈ front ++ b :: back := by simp
    have hbext : b.rowHash ∈ ext := by
      rw [← hback]
      simp
    obtain ⟨a, ha, hab⟩ := List.mem_map.1 (hext _ hbext)
    have hne : honest ≠ [] := List.ne_nil_of_mem ha
    obtain ⟨init, last, rfl⟩ := (List.eq_nil_or_concat' honest).resolve_left hne
    have hfne : front ≠ [] := by
      rintro rfl
      simp at hfront
    obtain ⟨finit, flast, rfl⟩ := (List.eq_nil_or_concat' front).resolve_left hfne
    have hlast : flast.rowHash = last.rowHash := by
      rw [List.map_append, List.map_append] at hfront
      have hend := (List.append_inj' hfront rfl).2
      simpa using hend
    have hlastmem : last ∈ init ++ [last] := by simp
    have hlastchain := hsub.subset hlastmem
    have hnz : last.rowHash ≠ zeroHash := by
      rw [hc.hashed last hlastchain]
      exact hzero last hlastmem
    have hlink : b.prevHash = last.rowHash := by
      rw [List.append_assoc] at hpass
      have hchain := (List.isChain_append.1 hpass).2.1
      have hpr := (List.isChain_cons_cons.1 hchain).1
      rw [← hlast]
      exact hpr (by rw [hlast]; exact hnz)
    have hachain := hsub.subset ha
    have hcanon : canonicalRow F b = canonicalRow F a := by
      apply canonicalRow_eq_of_hash_eq hfree (rowInput_mem_other hb) (rowInput_mem_chain hachain)
      rw [← hrow b hb, ← hc.hashed a hachain, hab]
    have hprev : a.prevHash = last.rowHash := by
      rw [← hlink]
      exact (canonicalRow_inj F (hsep b hb) (hc.sepFree hachain) hcanon).1.symm
    have hle : a.id ≤ last.id := by
      have hids := hc.ids.sublist hsub
      rcases List.mem_append.1 ha with hinit | hsingle
      · have hlt := (List.pairwise_append.1 hids).2.2 a hinit last (by simp)
        omega
      · rw [List.mem_singleton.1 hsingle]
    rcases hc.prev_cases hachain with hz | ⟨p, hp, hlt, hpa⟩
    · exact hnz (hprev.symm.trans hz)
    · have heq := id_eq_of_rowHash_eq hc hfree hp hlastchain (hpa.symm.trans hprev)
      omega

/-- Rows with the attested root, correct row hashes and unbroken links are the
honest ones, string by string. -/
theorem canonicalRows_eq (hc : HonestChain F H chain) (hsub : honest.Sublist chain)
    (hfree : NoCollision H (evidenceInputs F H chain honest other))
    (hzero : ∀ r ∈ honest, recomputeRowHash F H r ≠ zeroHash)
    (hsep : ∀ r ∈ other, SepFree r.prevHash)
    (hrow : ∀ r ∈ other, r.rowHash = recomputeRowHash F H r) (hpass : other.IsChain Passes)
    (hroot : buildRootFromRows H other = buildRootFromRows H honest) :
    other.map (canonicalRow F) = honest.map (canonicalRow F) := by
  have htreeHonest : treeInputs H honest ⊆ evidenceInputs F H chain honest other := by
    intro x hx
    exact List.mem_append_left _ (List.mem_append_right _ hx)
  have htreeOther : treeInputs H other ⊆ evidenceInputs F H chain honest other := by
    intro x hx
    exact List.mem_append_right _ hx
  have hhonest : ∀ r ∈ honest, r.rowHash = recomputeRowHash F H r := fun r hr =>
    hc.hashed r (hsub.subset hr)
  have hrowHash : ∀ rows : List (AuditRow ν t), (∀ r ∈ rows, r.rowHash = recomputeRowHash F H r) →
      ∀ x ∈ rows.map AuditRow.rowHash, RowHash x := by
    intro rows hrows x hx
    obtain ⟨r, hr, rfl⟩ := List.mem_map.1 hx
    rw [hrows r hr]
    exact rowHash_hashText _
  rw [treeInputs_eq] at htreeHonest htreeOther
  have hexpand := (root_eq_iff hfree (hrowHash honest hhonest) (hrowHash other hrow) htreeHonest
    htreeOther).1 (toHex_inj hroot.symm)
  have hhash : other.map AuditRow.rowHash = honest.map AuditRow.rowHash := by
    rcases Merkle.repeats_of_expand_eq hexpand with ⟨ext, h, hext⟩ | ⟨ext, h, hext⟩
    · rw [not_repeated hc hsub hfree hzero hsep hrow hpass h hext, List.append_nil] at h
      exact h
    · have hnodup := nodup_rowHash hc hsub hfree
      rw [h, List.nodup_append] at hnodup
      cases ext with
      | nil => rw [h, List.append_nil]
      | cons z ext =>
        have hz : z ∈ z :: ext := List.mem_cons_self
        exact absurd rfl (hnodup.2.2 z (hext z hz) z hz)
  refine map_eq_map_of_inj hhash ?_
  intro b hb a ha h
  apply canonicalRow_eq_of_hash_eq hfree (rowInput_mem_other hb)
    (rowInput_mem_chain (hsub.subset ha))
  rw [← hrow b hb, ← hhonest a ha, h]

end Evidence

theorem rowHash_of_walkRow {recompute : AuditRow ν t → String} {tenantId : Nat}
    {date : Option Int} {prevHash : String} {r : AuditRow ν t}
    (h : ∀ f ∈ walkRow recompute tenantId date prevHash r, f.kind ≠ .rowHashMismatch) :
    r.rowHash = recompute r := by
  by_contra hne
  unfold walkRow at h
  rw [if_pos hne] at h
  exact h _ (List.mem_append_left _ (List.mem_singleton_self _)) rfl

theorem rowHash_of_walkChain {recompute : AuditRow ν t → String} {tenantId : Nat}
    {date : Option Int} {prevHash : String} {rows : List (AuditRow ν t)}
    (h : ∀ f ∈ walkChain recompute tenantId date prevHash rows, f.kind ≠ .rowHashMismatch) :
    ∀ r ∈ rows, r.rowHash = recompute r := by
  induction rows generalizing prevHash with
  | nil => simp
  | cons r rows ih =>
    obtain ⟨hhead, htail⟩ := List.forall_mem_append.1 h
    exact List.forall_mem_cons.2 ⟨rowHash_of_walkRow hhead, ih htail⟩

section Silent

variable {sigOk : Attestation → Bool} {rows : List (AuditRow ν t)} {tenantId : Nat} {day : Int}
  {att : Attestation}

theorem rowHash_of_verifyRows
    (h : NoFailure .rowHashMismatch (some (verifyRows F H sigOk rows tenantId day (some att)))) :
    ∀ r ∈ rows, r.rowHash = recomputeRowHash F H r := by
  rw [noFailure_some] at h
  have hchain := (List.forall_mem_append.1 (List.forall_mem_append.1 h).1).1
  exact rowHash_of_walkChain hchain

theorem root_of_verifyRows
    (h : NoFailure .merkleRootMismatch (some (verifyRows F H sigOk rows tenantId day (some att)))) :
    buildRootFromRows H rows = att.merkleRoot := by
  rw [noFailure_some] at h
  have hmerkle := (List.forall_mem_append.1 (List.forall_mem_append.1 h).1).2
  by_contra hne
  rw [if_pos hne] at hmerkle
  exact hmerkle _ (List.mem_singleton_self _) rfl

end Silent

theorem dayRows_sublist (c : AuditContent ν t) (tenantId : Nat) (day : Int) :
    (dayRows c tenantId day).Sublist (tenantRows c.rows tenantId) := by
  rw [dayRows_eq_filter]
  exact List.filter_sublist

theorem attested_day_tamper_evident (sigOk : Attestation → Bool) {honest other : AuditContent ν t}
    {tenantId : Nat} {day : Int} {att : Attestation} {res : VerifierResult}
    (hc : HonestChain F H (tenantRows honest.rows tenantId))
    (hatt : att.merkleRoot = buildRootFromRows H (dayRows honest tenantId day))
    (hfree : NoCollision H (evidenceInputs F H (tenantRows honest.rows tenantId)
      (dayRows honest tenantId day) (dayRows other tenantId day)))
    (hzero : ∀ r ∈ dayRows honest tenantId day, recomputeRowHash F H r ≠ zeroHash)
    (hsep : ∀ r ∈ dayRows other tenantId day, SepFree r.prevHash)
    (hres : verifyDay F H sigOk other tenantId day (some att) = some res)
    (hrow : NoFailure .rowHashMismatch (some res)) (hprev : NoFailure .prevHashMismatch (some res))
    (hmerkle : NoFailure .merkleRootMismatch (some res)) :
    (dayRows other tenantId day).map (canonicalRow F) =
      (dayRows honest tenantId day).map (canonicalRow F) := by
  obtain ⟨rows, hfetch, rfl⟩ := Option.map_eq_some_iff.1 hres
  have hrows : dayRows other tenantId day = rows := by
    unfold fetchDayRows at hfetch
    split at hfetch
    · cases hfetch
    · exact Option.some.inj hfetch
  rw [hrows] at hfree hsep ⊢
  have hroot : buildRootFromRows H rows = buildRootFromRows H (dayRows honest tenantId day) := by
    rw [← hatt]
    exact root_of_verifyRows hmerkle
  exact canonicalRows_eq hc (dayRows_sublist honest tenantId day) hfree hzero hsep
    (rowHash_of_verifyRows hrow) ((noPrevFailure_verifyRows F H).1 hprev) hroot

/-- What one insert adds to the chain of its tenant, where the verifiers recompute the hash that
the trigger has stored. -/
theorem HonestChain.insertRow {F : NumberTexts ν} {H : Digest} {s : AuditLog ν} {a : NewRow ν}
    {tenantId : Nat} (h : HonestChain F H (tenantRows s.rows tenantId)) (ha : HashAgrees F H s a) :
    HonestChain F H (tenantRows (insertRow F H s a).rows tenantId) := by
  have hrows : tenantRows (Audit.insertRow F H s a).rows tenantId =
      tenantRows s.rows tenantId ++ tenantRows [newRow F H s a] tenantId :=
    List.filter_append _ _
  by_cases ht : a.tenantId = tenantId
  · have hnew : tenantRows [newRow F H s a] tenantId = [newRow F H s a] :=
      List.filter_eq_self.2 fun r hr => by
        rw [List.mem_singleton.1 hr]
        exact decide_eq_true ht
    have hprev : (newRow F H s a).prevHash = priorHash s.rows tenantId := by
      rw [← ht]
      rfl
    rw [hrows, hnew]
    constructor
    · refine List.pairwise_append.2 ⟨h.ids, List.pairwise_singleton _ _, ?_⟩
      intro r hr q hq
      have hbelow := s.below r (List.mem_of_mem_filter hr)
      rw [List.mem_singleton.1 hq]
      show r.id < s.nextId + a.skipped
      omega
    · intro r hr
      rcases List.mem_append.1 hr with hr | hr
      · exact h.hashed r hr
      · rw [List.mem_singleton.1 hr]
        exact ha.1.symm
    · intro r hr
      cases hl : tenantRows s.rows tenantId with
      | nil =>
        rw [hl] at hr
        obtain rfl := Option.some.inj hr
        rw [hprev, priorHash, hl]
        rfl
      | cons q l =>
        rw [hl] at hr
        exact h.start r (by rw [hl]; exact hr)
    · refine List.isChain_append.2 ⟨h.linked, List.isChain_singleton _, ?_⟩
      intro q hq r hr
      obtain rfl := Option.some.inj hr
      have hlast : (tenantRows s.rows tenantId).getLast? = some q := hq
      have hne : q.rowHash ≠ "" := by
        rw [h.hashed q (List.mem_of_getLast? hlast)]
        exact hashText_ne_empty H _
      show (newRow F H s a).prevHash = q.rowHash
      rw [hprev, priorHash, hlast]
      exact if_neg hne
  · have hnone : tenantRows [newRow F H s a] tenantId = [] :=
      List.filter_eq_nil_iff.2 fun r hr => by
        rw [List.mem_singleton.1 hr, decide_eq_true_eq]
        exact ht
    rw [hrows, hnone, List.append_nil]
    exact h

theorem honestChain_of_run {F : NumberTexts ν} {H : Digest} {l : List (NewRow ν)}
    (hl : EachStep (insertRow F H) (HashAgrees F H) AuditLog.empty l) (tenantId : Nat) :
    HonestChain F H (tenantRows (l.foldl (insertRow F H) AuditLog.empty).rows tenantId) := by
  have hempty : HonestChain F H (tenantRows (AuditLog.empty : AuditLog ν).rows tenantId) :=
    ⟨List.Pairwise.nil, by simp [tenantRows, AuditLog.empty], by simp [tenantRows, AuditLog.empty],
      List.IsChain.nil⟩
  exact (always_of_eachStep (I := fun s => HonestChain F H (tenantRows s.rows tenantId))
    (fun _ _ h ha => h.insertRow ha) hempty hl).last

theorem walkChain_eq_nil {recompute : AuditRow ν t → String} {tenantId : Nat} {date : Option Int}
    {prevHash : String} {rows : List (AuditRow ν t)} (hrow : ∀ r ∈ rows, r.rowHash = recompute r)
    (hfirst : ∀ r ∈ rows.head?, prevHash ≠ zeroHash → r.prevHash = prevHash)
    (hpass : rows.IsChain Passes) : walkChain recompute tenantId date prevHash rows = [] := by
  induction rows generalizing prevHash with
  | nil => rfl
  | cons r rows ih =>
    obtain ⟨hr, hrest⟩ := List.forall_mem_cons.1 hrow
    have hnext : ∀ q ∈ rows.head?, r.rowHash ≠ zeroHash → q.prevHash = r.rowHash :=
      fun q hq => (List.isChain_cons.1 hpass).1 q hq
    have hlink : ¬ (r.prevHash ≠ prevHash ∧ prevHash ≠ zeroHash) :=
      fun h => h.1 (hfirst r rfl h.2)
    rw [walkChain, ih hrest hnext (List.isChain_cons.1 hpass).2, walkRow, if_neg (not_not.2 hr),
      if_neg hlink]
    rfl

/-- A day whose hashes, links, root and signature are right is reported clean. -/
theorem verifyRows_silent {F : NumberTexts ν} {H : Digest} {sigOk : Attestation → Bool}
    {rows : List (AuditRow ν t)} {att : Attestation} (tenantId : Nat) (day : Int)
    (hrow : ∀ r ∈ rows, r.rowHash = recomputeRowHash F H r) (hpass : rows.IsChain Passes)
    (hroot : buildRootFromRows H rows = att.merkleRoot) (hsig : sigOk att = true) :
    (verifyRows F H sigOk rows tenantId day (some att)).failures = [] := by
  have hchain : walkChain (recomputeRowHash F H) tenantId (some day) zeroHash rows = [] :=
    walkChain_eq_nil hrow (fun _ _ h => absurd rfl h) hpass
  unfold verifyRows
  simp only [hchain, hroot, hsig]
  simp

/-- Three logins of one day, their ids stated. -/
def threeLogins : List (NewRow (Fin 10)) := [statedLoginAt 0, statedLoginAt 0, statedLoginAt 0]

def loginContent : AuditContent (Fin 10) .auditLog :=
  (threeLogins.foldl (insertRow smallNumbers sha256) AuditLog.empty).content

def loginHashes : List String :=
  ["ef6bf054a2c8f89f951aec79698d6e918703ab1e512784c83511cd822c699cd4",
    "2d57c7484388ab3cbbf17ca92bdf2c0d9fc826685da63252300737976e67fcb7",
    "e631050ef2dc7266766b9d2a41ca9819ad7a73450b7eb2847162f5ee257db837"]

def loginAttestation : Attestation where
  tenantId := 1
  table := .auditLog
  windowDate := 20585
  rowCount := 3
  firstId := some 1
  lastId := some 3
  firstRowPrevHash := zeroHash
  lastRowRowHash := loginHashes.getLastD zeroHash
  merkleRoot := buildRootFromRows sha256 (dayRows loginContent 1 20585)
  keyId := "k1"
  signatureB64 := ""
  computedAt := 1778643000000000

/-- The time that the verifier orders days by is no part of the text that is hashed. -/
def moved (r : AuditRow (Fin 10) .auditLog) : AuditRow (Fin 10) .auditLog :=
  { r with hashAt := r.hashAt + 5 }

def movedContent : AuditContent (Fin 10) .auditLog :=
  ⟨loginContent.rows.map moved, List.pairwise_map.2 loginContent.ordered⟩

theorem tenantRows_login : tenantRows loginContent.rows 1 = loginContent.rows :=
  List.filter_eq_self.2 (by decide +kernel)

theorem dayRows_login : dayRows loginContent 1 20585 = loginContent.rows :=
  List.filter_eq_self.2 (by decide +kernel)

theorem dayRows_moved : dayRows movedContent 1 20585 = loginContent.rows.map moved :=
  List.filter_eq_self.2 (by decide +kernel)

theorem honestChain_login : HonestChain smallNumbers sha256 loginContent.rows := by
  have hagrees := hashAgrees_statedLoginAt
  have hrun : EachStep (insertRow smallNumbers sha256) (HashAgrees smallNumbers sha256)
      AuditLog.empty threeLogins := ⟨hagrees _ _, hagrees _ _, hagrees _ _, trivial⟩
  have hchain := honestChain_of_run hrun 1
  rwa [show (threeLogins.foldl (insertRow smallNumbers sha256) AuditLog.empty).rows =
    loginContent.rows from rfl, tenantRows_login] at hchain

theorem login_rowHashes : loginContent.rows.map AuditRow.rowHash = loginHashes := by
  decide +kernel

theorem rowInput_moved (r : AuditRow (Fin 10) .auditLog) :
    rowInput smallNumbers (moved r) = rowInput smallNumbers r := rfl

theorem recompute_moved (r : AuditRow (Fin 10) .auditLog) :
    recomputeRowHash smallNumbers sha256 (moved r) = recomputeRowHash smallNumbers sha256 r := rfl

theorem rowHashes_moved :
    (loginContent.rows.map moved).map AuditRow.rowHash = loginContent.rows.map AuditRow.rowHash := by
  rw [List.map_map]
  rfl

theorem noCollision_login :
    NoCollision sha256 (evidenceInputs smallNumbers sha256 loginContent.rows loginContent.rows
      (loginContent.rows.map moved)) := by
  have hdigests : (loginContent.rows.map (rowInput smallNumbers)).map sha256.hash =
      loginHashes.map fromHex := by
    rw [← login_rowHashes, List.map_map, List.map_map]
    apply List.map_congr_left
    intro r hr
    have hhash := honestChain_login.hashed r hr
    show sha256.hash (rowInput smallNumbers r) = fromHex r.rowHash
    rw [hhash]
    exact (fromHex_toHex _).symm
  have hnodup : ((loginContent.rows.map (rowInput smallNumbers) ++
      rootInputs sha256 loginHashes).map sha256.hash).Nodup := by
    rw [List.map_append, hdigests]
    decide +kernel
  apply noCollision_of_nodup _ hnodup
  unfold evidenceInputs
  rw [treeInputs_eq, treeInputs_eq, rowHashes_moved, login_rowHashes, List.map_map]
  have hinputs : rowInput smallNumbers ∘ moved = rowInput smallNumbers := funext rowInput_moved
  rw [hinputs]
  simp

theorem moved_login_silent (kind : FailureKind) :
    NoFailure kind (some (verifyRows smallNumbers sha256 (fun _ => true)
      (loginContent.rows.map moved) 1 20585 (some loginAttestation))) := by
  have hrow : ∀ r ∈ loginContent.rows.map moved,
      r.rowHash = recomputeRowHash smallNumbers sha256 r := by
    intro r hr
    obtain ⟨q, hq, rfl⟩ := List.mem_map.1 hr
    rw [recompute_moved]
    exact honestChain_login.hashed q hq
  have hpass : (loginContent.rows.map moved).IsChain Passes :=
    (List.isChain_map moved).2 (honestChain_login.linked.imp fun _ _ h _ => h)
  have hroot : buildRootFromRows sha256 (loginContent.rows.map moved) =
      loginAttestation.merkleRoot := by
    unfold loginAttestation buildRootFromRows
    rw [rowHashes_moved, dayRows_login]
  rw [noFailure_some, verifyRows_silent 1 20585 hrow hpass hroot rfl]
  simp

theorem moved_login_row_same_text :
    (dayRows movedContent 1 20585).map (canonicalRow smallNumbers) =
      (dayRows loginContent 1 20585).map (canonicalRow smallNumbers) := by
  have hroot : loginAttestation.merkleRoot =
      buildRootFromRows sha256 (dayRows loginContent 1 20585) := rfl
  have hzero : ∀ r ∈ dayRows loginContent 1 20585,
      recomputeRowHash smallNumbers sha256 r ≠ zeroHash := by
    intro r hr h
    rw [dayRows_login] at hr
    have hmem : r.rowHash ∈ loginHashes := login_rowHashes ▸ List.mem_map_of_mem hr
    rw [honestChain_login.hashed r hr, h] at hmem
    exact absurd hmem (by decide)
  have hsep : ∀ r ∈ dayRows movedContent 1 20585, SepFree r.prevHash := by
    intro r hr
    rw [dayRows_moved] at hr
    obtain ⟨q, hq, rfl⟩ := List.mem_map.1 hr
    have hfree : SepFree q.prevHash := honestChain_login.sepFree hq
    exact hfree
  have hchain : HonestChain smallNumbers sha256 (tenantRows loginContent.rows 1) := by
    rw [tenantRows_login]
    exact honestChain_login
  have hfree : NoCollision sha256 (evidenceInputs smallNumbers sha256
      (tenantRows loginContent.rows 1) (dayRows loginContent 1 20585)
      (dayRows movedContent 1 20585)) := by
    rw [tenantRows_login, dayRows_login, dayRows_moved]
    exact noCollision_login
  have hres : verifyDay smallNumbers sha256 (fun _ => true) movedContent 1 20585
      (some loginAttestation) = some (verifyRows smallNumbers sha256 (fun _ => true)
        (loginContent.rows.map moved) 1 20585 (some loginAttestation)) := by
    rw [← dayRows_moved]
    rfl
  exact attested_day_tamper_evident (fun _ => true) hchain hroot hfree hzero hsep hres
    (moved_login_silent _) (moved_login_silent _) (moved_login_silent _)

end Audit

end Vici2
