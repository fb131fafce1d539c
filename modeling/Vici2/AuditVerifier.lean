import Vici2.AuditCanonical
import Vici2.MerkleTree
import Vici2.Sha256

/-! The verifiers of the audit chain. A day is verified by a walk over its rows
in id order, which recomputes each row hash and compares each `prev_hash` with
the hash of the row before, and by the Merkle root of the day's attestation; a
range is verified day by day. -/

namespace Vici2

namespace Audit

inductive AuditTable
  | auditLog
  | callWindowAudit
  | originateAudit
  | consentLog
  | dncSyncLog
  deriving DecidableEq, Repr

def RowBody (ν : Type) : AuditTable → Type
  | .auditLog => AuditLogBody ν
  | .callWindowAudit => CallWindowBody
  | .originateAudit => OriginateBody ν
  | .consentLog => ConsentBody
  | .dncSyncLog => DncSyncBody

/-- `dnc_sync_log` has no tenant column; nothing reads the field there. -/
structure AuditRow (ν : Type) (t : AuditTable) where
  tenantId : Nat
  id : Nat
  hashAt : Int
  prevHash : String
  rowHash : String
  body : RowBody ν t

structure AuditContent (ν : Type) (t : AuditTable) where
  rows : List (AuditRow ν t)
  ordered : rows.Pairwise fun a b => a.id ≤ b.id

def zeroHash : String := "0000000000000000000000000000000000000000000000000000000000000000"

variable {ν : Type} (F : NumberTexts ν) {t : AuditTable}

def canonicalRow : {t : AuditTable} → AuditRow ν t → String
  | .auditLog, r => canonicalAuditLog F r.prevHash r.tenantId r.id r.body
  | .callWindowAudit, r => canonicalCallWindowAudit r.prevHash r.tenantId r.id r.body
  | .originateAudit, r => canonicalOriginateAudit F r.prevHash r.tenantId r.id r.body
  | .consentLog, r => canonicalConsentLog r.prevHash r.tenantId r.id r.body
  | .dncSyncLog, r => canonicalDncSyncLog r.prevHash r.id r.body

def hashText (H : Digest) (s : String) : String := toHex (H.hash (utf8 s))

def recomputeRowHash (H : Digest) (r : AuditRow ν t) : String := hashText H (canonicalRow F r)

def goRowHash (H : Digest) (r : AuditRow ν .auditLog) : String :=
  hashText H (canonicalize F r.prevHash r.tenantId r.id r.body)

def dayMicros : Int := 86400000000

def dayOf (r : AuditRow ν t) : Int := r.hashAt / dayMicros

def onDay (tenantId : Nat) (day : Int) (r : AuditRow ν t) : Bool :=
  decide (r.tenantId = tenantId) && decide (day * dayMicros ≤ r.hashAt) &&
    decide (r.hashAt ≤ day * dayMicros + (dayMicros - 1))

def dayRows (c : AuditContent ν t) (tenantId : Nat) (day : Int) : List (AuditRow ν t) :=
  c.rows.filter (onDay tenantId day)

/-- The query filters by tenant, which `dnc_sync_log` rejects. -/
def fetchDayRows (c : AuditContent ν t) (tenantId : Nat) (day : Int) :
    Option (List (AuditRow ν t)) :=
  if t = .dncSyncLog then none else some (dayRows c tenantId day)

def tenantRows (rows : List (AuditRow ν t)) (tenantId : Nat) :
    List (AuditRow ν t) :=
  rows.filter fun r => r.tenantId = tenantId

inductive FailureKind
  | rowHashMismatch
  | prevHashMismatch
  | missingRow
  | merkleRootMismatch
  | signatureInvalid
  | missingAttestation
  deriving DecidableEq, Repr

structure VerifierFailure where
  kind : FailureKind
  table : AuditTable
  tenantId : Nat
  id : Option Nat
  date : Option Int
  expected : Option String
  actual : Option String
  deriving DecidableEq, Repr

structure VerifierResult where
  failures : List VerifierFailure
  rowsChecked : Nat
  daysChecked : Nat
  attestationsChecked : Nat
  deriving DecidableEq, Repr

def VerifierResult.ok (r : VerifierResult) : Bool := r.failures.isEmpty

/-- The checks of one row, after a row with hash `prevHash`. -/
def walkRow (recompute : AuditRow ν t → String) (tenantId : Nat) (date : Option Int)
    (prevHash : String) (r : AuditRow ν t) : List VerifierFailure :=
  (if r.rowHash ≠ recompute r then
    [⟨.rowHashMismatch, t, tenantId, some r.id, date, some (recompute r), some r.rowHash⟩]
  else []) ++
  if r.prevHash ≠ prevHash ∧ prevHash ≠ zeroHash then
    [⟨.prevHashMismatch, t, tenantId, some r.id, date, some prevHash, some r.prevHash⟩]
  else []

def walkChain (recompute : AuditRow ν t → String) (tenantId : Nat) (date : Option Int) :
    String → List (AuditRow ν t) → List VerifierFailure
  | _, [] => []
  | prevHash, r :: rows =>
    walkRow recompute tenantId date prevHash r ++ walkChain recompute tenantId date r.rowHash rows

def leafHash (H : Digest) (rowHash : String) : Bytes := H.hash (0 :: fromHex rowHash)

def internalHash (H : Digest) (l r : Bytes) : Bytes := H.hash (1 :: (l ++ r))

def emptyRoot (H : Digest) : Bytes := H.hash [0]

def buildMerkleRoot (H : Digest) (rowHashes : List String) : Bytes :=
  (Merkle.reduce (internalHash H) (rowHashes.map (leafHash H))).getD (emptyRoot H)

def buildRootFromRows (H : Digest) (rows : List (AuditRow ν t)) : String :=
  toHex (buildMerkleRoot H (rows.map AuditRow.rowHash))

/-- A row of `audit_attestation`; the window is a day, `computed_at` in microseconds. -/
structure Attestation where
  tenantId : Nat
  table : AuditTable
  windowDate : Int
  rowCount : Nat
  firstId : Option Nat
  lastId : Option Nat
  firstRowPrevHash : String
  lastRowRowHash : String
  merkleRoot : String
  keyId : String
  signatureB64 : String
  computedAt : Int
  deriving DecidableEq, Repr

/-- What `verifyDay` makes of the rows it fetched; `sigOk` is its check of the
signature. -/
def verifyRows (H : Digest) (sigOk : Attestation → Bool) (rows : List (AuditRow ν t))
    (tenantId : Nat) (day : Int) (attestation : Option Attestation) : VerifierResult :=
  let chain := walkChain (recomputeRowHash F H) tenantId (some day) zeroHash rows
  let failure (kind : FailureKind) (expected actual : Option String) : VerifierFailure :=
    ⟨kind, t, tenantId, none, some day, expected, actual⟩
  match attestation with
  | none => ⟨chain ++ [failure .missingAttestation none none], rows.length, 1, 0⟩
  | some a =>
    let root := buildRootFromRows H rows
    let merkle :=
      if root ≠ a.merkleRoot then [failure .merkleRootMismatch (some root) (some a.merkleRoot)]
      else []
    let signature := if sigOk a then [] else [failure .signatureInvalid none none]
    ⟨chain ++ merkle ++ signature, rows.length, 1, 1⟩

def verifyDay (H : Digest) (sigOk : Attestation → Bool) (c : AuditContent ν t) (tenantId : Nat)
    (day : Int) (attestation : Option Attestation) : Option VerifierResult :=
  (fetchDayRows c tenantId day).map fun rows => verifyRows F H sigOk rows tenantId day attestation

def VerifierResult.append (a b : VerifierResult) : VerifierResult :=
  ⟨a.failures ++ b.failures, a.rowsChecked + b.rowsChecked, a.daysChecked + b.daysChecked,
    a.attestationsChecked + b.attestationsChecked⟩

def daysBetween (d d' : Int) : List Int :=
  (List.range (d' - d + 1).toNat).map fun i : Nat => d + (i : Int)

/-- The results of the days one after the other; an error ends the loop. -/
def verifyDays (day : Int → Option VerifierResult) : List Int → VerifierResult → Option VerifierResult
  | [], acc => some acc
  | d :: ds, acc => (day d).bind fun r => verifyDays day ds (acc.append r)

/-- `AuditVerifier.verifyRange`, between two times in milliseconds. -/
def verifyRange (H : Digest) (sigOk : Attestation → Bool) (c : AuditContent ν t) (tenantId : Nat)
    (attestations : Int → Option Attestation) (from' to' : Int) :
    Option VerifierResult :=
  verifyDays (fun d => verifyDay F H sigOk c tenantId d (attestations d))
    (daysBetween (from' / 86400000) (to' / 86400000)) ⟨[], 0, 0, 0⟩

/-- `Verifier.VerifyDay` of the dialer, which knows `audit_log` only. -/
def goVerifyDay (H : Digest) :
    {t : AuditTable} → AuditContent ν t → Nat → Int → Option VerifierResult
  | .auditLog, c, tenantId, day =>
    let rows := dayRows c tenantId day
    some ⟨walkChain (goRowHash F H) tenantId none zeroHash rows, rows.length, 1, 0⟩
  | _, _, _, _ => some ⟨[], 0, 1, 0⟩

/-- `Verifier.VerifyRange` of the dialer, between two times in nanoseconds. -/
def goVerifyRange (H : Digest) (c : AuditContent ν t) (tenantId : Nat) (from' to' : Int) :
    Option VerifierResult :=
  verifyDays (goVerifyDay F H c tenantId)
    (daysBetween (from' / 86400000000000) (to' / 86400000000000)) ⟨[], 0, 0, 0⟩

def Passes (p r : AuditRow ν t) : Prop := p.rowHash ≠ zeroHash → r.prevHash = p.rowHash

def Linked (p r : AuditRow ν t) : Prop := r.prevHash = p.rowHash

instance : DecidableRel (Passes : AuditRow ν t → AuditRow ν t → Prop) := fun p r =>
  inferInstanceAs (Decidable (p.rowHash ≠ zeroHash → r.prevHash = p.rowHash))

instance : DecidableRel (Linked : AuditRow ν t → AuditRow ν t → Prop) := fun p r =>
  inferInstanceAs (Decidable (r.prevHash = p.rowHash))

def NoFailure (kind : FailureKind) (r : Option VerifierResult) : Prop :=
  ∀ v ∈ r, ∀ f ∈ v.failures, f.kind ≠ kind

theorem prev_mem_walkRow (recompute : AuditRow ν t → String) (tenantId : Nat) (date : Option Int)
    (prevHash : String) (r : AuditRow ν t) :
    (∃ f ∈ walkRow recompute tenantId date prevHash r, f.kind = .prevHashMismatch) ↔
      r.prevHash ≠ prevHash ∧ prevHash ≠ zeroHash := by
  unfold walkRow
  constructor
  · rintro ⟨f, hf, hk⟩
    rcases List.mem_append.1 hf with hf | hf
    · split at hf
      · rw [List.mem_singleton] at hf
        rw [hf] at hk
        cases hk
      · simp at hf
    · split at hf
      · next h => exact h
      · simp at hf
  · intro h
    rw [if_pos h]
    exact ⟨_, List.mem_append_right _ (List.mem_singleton_self _), rfl⟩

theorem walkChain_no_prev {recompute : AuditRow ν t → String} {tenantId : Nat} {date : Option Int}
    {prevHash : String} {rows : List (AuditRow ν t)} :
    (∀ f ∈ walkChain recompute tenantId date prevHash rows, f.kind ≠ .prevHashMismatch) ↔
      (∀ r ∈ rows.head?, prevHash ≠ zeroHash → r.prevHash = prevHash) ∧ rows.IsChain Passes := by
  induction rows generalizing prevHash with
  | nil => simp [walkChain]
  | cons r rows ih =>
    have hrow : (∀ f ∈ walkRow recompute tenantId date prevHash r, f.kind ≠ .prevHashMismatch) ↔
        (prevHash ≠ zeroHash → r.prevHash = prevHash) := by
      have h := prev_mem_walkRow recompute tenantId date prevHash r
      constructor
      · intro hall hne
        by_contra hp
        obtain ⟨f, hf, hk⟩ := h.2 ⟨hp, hne⟩
        exact hall f hf hk
      · intro himp f hf hk
        obtain ⟨hp, hne⟩ := h.1 ⟨f, hf, hk⟩
        exact hp (himp hne)
    simp only [walkChain, List.forall_mem_append, hrow, ih, List.head?_cons, Option.mem_def,
      Option.some.injEq, forall_eq']
    apply and_congr_right
    intro _
    cases rows with
    | nil => simp
    | cons r' rows =>
      rw [List.isChain_cons_cons]
      simp [Passes]

theorem onDay_iff {tenantId : Nat} {day : Int} {r : AuditRow ν t} :
    onDay tenantId day r = true ↔ r.tenantId = tenantId ∧ dayOf r = day := by
  unfold onDay dayOf dayMicros
  rw [Bool.and_eq_true, Bool.and_eq_true, decide_eq_true_eq, decide_eq_true_eq, decide_eq_true_eq,
    and_assoc]
  apply and_congr_right
  intro _
  omega

theorem dayRows_eq_filter (c : AuditContent ν t) (tenantId : Nat)
    (day : Int) :
    dayRows c tenantId day = (tenantRows c.rows tenantId).filter fun r => dayOf r = day := by
  unfold dayRows tenantRows
  rw [List.filter_filter]
  apply List.filter_congr
  intro r _
  rw [Bool.eq_iff_iff, onDay_iff, Bool.and_eq_true, decide_eq_true_eq, decide_eq_true_eq]
  exact and_comm

theorem noFailure_some {kind : FailureKind} {v : VerifierResult} :
    NoFailure kind (some v) ↔ ∀ f ∈ v.failures, f.kind ≠ kind := by
  unfold NoFailure
  simp

theorem walkChain_dayRows_no_prev {recompute : AuditRow ν t → String} {tenantId : Nat}
    {date : Option Int} {rows : List (AuditRow ν t)} :
    (∀ f ∈ walkChain recompute tenantId date zeroHash rows, f.kind ≠ .prevHashMismatch) ↔
      rows.IsChain Passes := by
  rw [walkChain_no_prev]
  simp

theorem noPrevFailure_verifyRows (H : Digest) {sigOk : Attestation → Bool}
    {rows : List (AuditRow ν t)} {tenantId : Nat} {day : Int} {att : Option Attestation} :
    NoFailure .prevHashMismatch (some (verifyRows F H sigOk rows tenantId day att)) ↔
      rows.IsChain Passes := by
  rw [noFailure_some]
  unfold verifyRows
  cases att with
  | none =>
    dsimp only
    rw [List.forall_mem_append, walkChain_dayRows_no_prev]
    simp
  | some a =>
    dsimp only
    rw [List.forall_mem_append, List.forall_mem_append, walkChain_dayRows_no_prev]
    constructor
    · rintro ⟨⟨h, -⟩, -⟩
      exact h
    · intro h
      refine ⟨⟨h, ?_⟩, ?_⟩
      · intro f hf
        split at hf
        · rw [List.mem_singleton] at hf
          rw [hf]
          intro hk
          cases hk
        · simp at hf
      · intro f hf
        split at hf
        · simp at hf
        · rw [List.mem_singleton] at hf
          rw [hf]
          intro hk
          cases hk

theorem noPrevFailure_verifyDay (H : Digest) {sigOk : Attestation → Bool}
    {c : AuditContent ν .auditLog} {tenantId : Nat} {day : Int} {att : Option Attestation} :
    NoFailure .prevHashMismatch (verifyDay F H sigOk c tenantId day att) ↔
      (dayRows c tenantId day).IsChain Passes :=
  noPrevFailure_verifyRows F H

theorem noPrevFailure_goVerifyDay (H : Digest) {c : AuditContent ν .auditLog} {tenantId : Nat}
    {day : Int} :
    NoFailure .prevHashMismatch (goVerifyDay F H c tenantId day) ↔
      (dayRows c tenantId day).IsChain Passes := by
  unfold goVerifyDay
  rw [noFailure_some, walkChain_dayRows_no_prev]

end Audit

end Vici2
