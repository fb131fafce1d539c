import Vici2.AuditTrigger

/-! Verification of a range of days. Every day is walked on its own, from the
zero hash, so a range is silent about a broken link between two days; a link
inside a day is reported. -/

namespace Vici2

namespace Audit

variable {ν : Type} {t : AuditTable}

theorem isChain_of_classes {α β : Type*} [DecidableEq β] {key : α → β} {R S Q : α → α → Prop}
    (himp : ∀ x y, S x y → (key x = key y → R x y) → Q x y) {l : List α} (hS : l.IsChain S)
    (h : ∀ b, (l.filter fun x => key x = b).IsChain R) : l.IsChain Q := by
  induction l with
  | nil => exact List.IsChain.nil
  | cons x l ih =>
    have htail : ∀ b, (l.filter fun x => key x = b).IsChain R := by
      intro b
      have hb := h b
      rw [List.filter_cons] at hb
      split at hb
      · exact hb.tail
      · exact hb
    cases l with
    | nil => exact List.IsChain.singleton x
    | cons y l =>
      obtain ⟨hxS, hyS⟩ := List.isChain_cons_cons.1 hS
      refine List.IsChain.cons_cons ?_ (ih hyS htail)
      apply himp x y hxS
      intro hxy
      have hx := h (key x)
      rw [List.filter_cons_of_pos (by simp), List.filter_cons_of_pos (by simp [hxy])] at hx
      exact (List.isChain_cons_cons.1 hx).1

theorem noFailure_verifyDays {kind : FailureKind} {day : Int → Option VerifierResult}
    {ds : List Int} (hok : ∀ d ∈ ds, (day d).isSome) (acc : VerifierResult) :
    NoFailure kind (verifyDays day ds acc) ↔
      NoFailure kind (some acc) ∧ ∀ d ∈ ds, NoFailure kind (day d) := by
  induction ds generalizing acc with
  | nil => simp [verifyDays]
  | cons d ds ih =>
    obtain ⟨r, hr⟩ := Option.isSome_iff_exists.1 (hok d List.mem_cons_self)
    have happend : NoFailure kind (some (acc.append r)) ↔
        NoFailure kind (some acc) ∧ NoFailure kind (some r) := by
      rw [noFailure_some, noFailure_some, noFailure_some]
      exact List.forall_mem_append
    have hds : ∀ d ∈ ds, (day d).isSome := fun d hd => hok d (List.mem_cons_of_mem _ hd)
    unfold verifyDays
    rw [hr, Option.bind_some, ih hds, happend, and_assoc, List.forall_mem_cons, hr]

theorem mem_daysBetween {d d' x : Int} : x ∈ daysBetween d d' ↔ d ≤ x ∧ x ≤ d' := by
  unfold daysBetween
  rw [List.mem_map]
  constructor
  · rintro ⟨i, hi, rfl⟩
    have hlt := List.mem_range.1 hi
    omega
  · rintro ⟨h, h'⟩
    refine ⟨(x - d).toNat, List.mem_range.2 ?_, ?_⟩
    · omega
    · omega

def rangeRows (c : AuditContent ν t) (tenantId : Nat) (d d' : Int) : List (AuditRow ν t) :=
  (tenantRows c.rows tenantId).filter fun r => decide (d ≤ dayOf r) && decide (dayOf r ≤ d')

def DaysChain (c : AuditContent ν t) (tenantId : Nat) (d d' : Int) : Prop :=
  ∀ day ∈ daysBetween d d', (dayRows c tenantId day).IsChain Passes

theorem filter_rangeRows {c : AuditContent ν t} {tenantId : Nat} {d d' day : Int}
    (hday : day ∈ daysBetween d d') :
    (rangeRows c tenantId d d').filter (fun r => dayOf r = day) = dayRows c tenantId day := by
  have hmem := mem_daysBetween.1 hday
  rw [dayRows_eq_filter]
  unfold rangeRows
  rw [List.filter_filter]
  apply List.filter_congr
  intro r _
  rw [Bool.eq_iff_iff]
  simp only [Bool.and_eq_true, decide_eq_true_eq]
  omega

theorem isChain_filter_rangeRows {c : AuditContent ν t} {tenantId : Nat} {d d' : Int}
    (h : DaysChain c tenantId d d') (day : Int) :
    ((rangeRows c tenantId d d').filter fun r => dayOf r = day).IsChain Passes := by
  by_cases hday : day ∈ daysBetween d d'
  · rw [filter_rangeRows hday]
    exact h day hday
  · have hnil : (rangeRows c tenantId d d').filter (fun r => dayOf r = day) = [] := by
      rw [List.filter_eq_nil_iff]
      intro r hr hr'
      have hrange := (List.mem_filter.1 hr).2
      simp only [Bool.and_eq_true, decide_eq_true_eq] at hrange hr'
      exact hday (mem_daysBetween.2 (hr' ▸ hrange))
    rw [hnil]
    exact List.IsChain.nil

/-- The links that no day's walk looks at: between two days, and after a row
stored with the zero hash. -/
def UnseenLinked (p r : AuditRow ν t) : Prop :=
  dayOf p ≠ dayOf r ∨ p.rowHash = zeroHash → r.prevHash = p.rowHash

instance (c : AuditContent ν t) (tenantId : Nat) (d d' : Int) :
    Decidable (DaysChain c tenantId d d') :=
  inferInstanceAs (Decidable (∀ day ∈ daysBetween d d',
    (dayRows c tenantId day).IsChain Passes))

theorem linked_iff_unseenLinked {c : AuditContent ν t} {tenantId : Nat} {d d' : Int}
    (h : DaysChain c tenantId d d') :
    (rangeRows c tenantId d d').IsChain Linked ↔
      (rangeRows c tenantId d d').IsChain UnseenLinked := by
  constructor
  · intro hlinked
    exact hlinked.imp fun p r hpr _ => hpr
  · intro hunseen
    refine isChain_of_classes ?_ hunseen (isChain_filter_rangeRows h)
    intro p r hu hs
    by_cases hu' : dayOf p ≠ dayOf r ∨ p.rowHash = zeroHash
    · exact hu hu'
    · push Not at hu'
      exact hs hu'.1 hu'.2

section Range

variable (F : NumberTexts ν) (H : Digest)

theorem noFailure_verifyRange {sigOk : Attestation → Bool} {c : AuditContent ν .auditLog}
    {tenantId : Nat} {atts : Int → Option Attestation} {from' to' : Int} :
    NoFailure .prevHashMismatch (verifyRange F H sigOk c tenantId atts from' to') ↔
      DaysChain c tenantId (from' / 86400000) (to' / 86400000) := by
  unfold verifyRange
  rw [noFailure_verifyDays (fun _ _ => rfl), noFailure_some]
  simp only [noPrevFailure_verifyDay, DaysChain]
  simp

theorem noFailure_goVerifyRange {c : AuditContent ν .auditLog} {tenantId : Nat} {from' to' : Int} :
    NoFailure .prevHashMismatch (goVerifyRange F H c tenantId from' to') ↔
      DaysChain c tenantId (from' / 86400000000000) (to' / 86400000000000) := by
  unfold goVerifyRange
  rw [noFailure_verifyDays (fun _ _ => rfl), noFailure_some]
  simp only [noPrevFailure_goVerifyDay, DaysChain]
  simp

/-- A silent range, of either verifier and between two times in nanoseconds,
means that the rows of the range are linked. -/
def RangeChecked (sigOk : Attestation → Bool) (c : AuditContent ν .auditLog) (tenantId : Nat)
    (atts : Int → Option Attestation) (from' to' : Int) : Prop :=
  NoFailure .prevHashMismatch (verifyRange F H sigOk c tenantId atts (from' / 1000000) (to' / 1000000)) ∨
    NoFailure .prevHashMismatch (goVerifyRange F H c tenantId from' to') →
  (rangeRows c tenantId (from' / 86400000000000) (to' / 86400000000000)).IsChain Linked

theorem rangeChecked_iff_days {sigOk : Attestation → Bool} {c : AuditContent ν .auditLog}
    {tenantId : Nat} {atts : Int → Option Attestation} {from' to' : Int} :
    RangeChecked F H sigOk c tenantId atts from' to' ↔
      (DaysChain c tenantId (from' / 86400000000000) (to' / 86400000000000) →
        (rangeRows c tenantId (from' / 86400000000000) (to' / 86400000000000)).IsChain Linked) := by
  have hfrom : from' / 1000000 / 86400000 = from' / 86400000000000 := by omega
  have hto : to' / 1000000 / 86400000 = to' / 86400000000000 := by omega
  unfold RangeChecked
  rw [noFailure_verifyRange, noFailure_goVerifyRange, hfrom, hto, or_self]

theorem range_checked_iff (sigOk : Attestation → Bool) (c : AuditContent ν .auditLog)
    (tenantId : Nat) (atts : Int → Option Attestation) (from' to' : Int) :
    RangeChecked F H sigOk c tenantId atts from' to' ↔
      (∃ day ∈ daysBetween (from' / 86400000000000) (to' / 86400000000000),
        ¬ (dayRows c tenantId day).IsChain Passes) ∨
      (rangeRows c tenantId (from' / 86400000000000) (to' / 86400000000000)).IsChain
        UnseenLinked := by
  rw [rangeChecked_iff_days]
  by_cases hdays : DaysChain c tenantId (from' / 86400000000000) (to' / 86400000000000)
  · have hnot : ¬ ∃ day ∈ daysBetween (from' / 86400000000000) (to' / 86400000000000),
        ¬ (dayRows c tenantId day).IsChain Passes := by
      rintro ⟨day, hday, hchain⟩
      exact hchain (hdays day hday)
    rw [linked_iff_unseenLinked hdays, or_iff_right hnot]
    exact ⟨fun h => h hdays, fun h _ => h⟩
  · refine ⟨fun _ => Or.inl ?_, fun _ h => absurd h hdays⟩
    unfold DaysChain at hdays
    push Not at hdays
    exact hdays

end Range

/-- The rows of three inserts, without the last one of the first day. -/
def cutTail : AuditContent (Fin 10) .auditLog :=
  let s := [loginAt 0, loginAt 0, loginAt 1].foldl (insertRow smallNumbers sha256) AuditLog.empty
  ⟨s.rows.filter fun r => r.id ≠ 2, s.ordered.filter _⟩

theorem cut_tail_unnoticed :
    ¬ RangeChecked smallNumbers sha256 (fun _ => true) cutTail 1 (fun _ => none)
      1778544000000000000 1778630400000000000 := by
  rw [rangeChecked_iff_days]
  intro h
  have hlinked := h (by decide +kernel)
  revert hlinked
  decide +kernel

end Audit

end Vici2
