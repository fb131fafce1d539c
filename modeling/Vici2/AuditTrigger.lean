import Vici2.AuditAgreement
import Vici2.AuditVerifier
import Vici2.Runs
import Mathlib.Data.List.Chain

/-! Inserts into `audit_log` through its hash-chain trigger. A row is linked to
the tenant's row with the highest id, while a day is walked over the rows that
carry its date, so the walk is silent as long as a tenant does not come back to
a day after writing to another one. -/

namespace Vici2

namespace Audit

/-- `audit_log` in id order, with its `AUTO_INCREMENT` counter. -/
structure AuditLog (ν : Type) where
  rows : List (AuditRow ν .auditLog)
  nextId : Nat
  below : ∀ r ∈ rows, r.id < nextId
  ordered : rows.Pairwise fun a b => a.id ≤ b.id

structure NewRow (ν : Type) where
  tenantId : Nat
  /-- Ids taken by inserts that were rolled back. -/
  skipped : Nat
  /-- Whether the statement states the id itself; none of the writers does. -/
  statesId : Bool
  body : AuditLogBody ν

variable {ν : Type} (F : NumberTexts ν) (H : Digest)

def AuditLog.empty : AuditLog ν := ⟨[], 1, by simp, List.Pairwise.nil⟩

def AuditLog.content (s : AuditLog ν) : AuditContent ν .auditLog := ⟨s.rows, s.ordered⟩

def priorHash (rows : List (AuditRow ν .auditLog)) (tenantId : Nat) : String :=
  match (tenantRows rows tenantId).getLast? with
  | none => zeroHash
  | some r => if r.rowHash = "" then zeroHash else r.rowHash

/-- The trigger `audit_log_hash_chain` and the row that it leaves; `ts` is never null. -/
def auditLogHashChain (rows : List (AuditRow ν .auditLog)) (tenantId newId id : Nat)
    (body : AuditLogBody ν) : AuditRow ν .auditLog :=
  let prevHash := priorHash rows tenantId
  { tenantId := tenantId
    id := id
    hashAt := body.ts
    prevHash := prevHash
    rowHash := hashText H (triggerCanonical F prevHash tenantId newId body)
    body := body }

def AuditLog.idOf (s : AuditLog ν) (a : NewRow ν) : Nat := s.nextId + a.skipped

def AuditLog.statedId (s : AuditLog ν) (a : NewRow ν) : Option Nat :=
  if a.statesId then some (s.idOf a) else none

def newRow (s : AuditLog ν) (a : NewRow ν) : AuditRow ν .auditLog :=
  auditLogHashChain F H s.rows a.tenantId (triggerId (s.statedId a)) (s.idOf a) a.body

def insertRow (s : AuditLog ν) (a : NewRow ν) : AuditLog ν where
  rows := s.rows ++ [newRow F H s a]
  nextId := s.nextId + a.skipped + 1
  below := by
    intro r hr
    rcases List.mem_append.1 hr with hr | hr
    · have h := s.below r hr
      omega
    · rw [List.mem_singleton] at hr
      rw [hr]
      show s.nextId + a.skipped < s.nextId + a.skipped + 1
      omega
  ordered := by
    rw [List.pairwise_append]
    refine ⟨s.ordered, List.pairwise_singleton _ _, ?_⟩
    intro r hr q hq
    rw [List.mem_singleton] at hq
    have h := s.below r hr
    rw [hq]
    show r.id ≤ s.nextId + a.skipped
    omega

def DayContinues (s : AuditLog ν) (a : NewRow ν) : Prop :=
  (∀ r ∈ (tenantRows s.rows a.tenantId).getLast?, dayOf r = a.body.ts / dayMicros) ∨
    ∀ r ∈ tenantRows s.rows a.tenantId, dayOf r ≠ a.body.ts / dayMicros

instance (s : AuditLog ν) (a : NewRow ν) : Decidable (DayContinues s a) :=
  inferInstanceAs (Decidable ((∀ r ∈ (tenantRows s.rows a.tenantId).getLast?,
    dayOf r = a.body.ts / dayMicros) ∨
      ∀ r ∈ tenantRows s.rows a.tenantId, dayOf r ≠ a.body.ts / dayMicros))

structure DaysPass (s : AuditLog ν) : Prop where
  days : ∀ tenantId day, (dayRows s.content tenantId day).IsChain Passes
  hashed : ∀ r ∈ s.rows, r.rowHash ≠ ""

theorem hashText_ne_empty (s : String) : hashText H s ≠ "" := by
  intro h
  have hlen : (hashText H s).toList.length = 64 := by
    rw [hashText, toHex, String.toList_ofList, length_hexChars, H.length_hash]
  rw [h] at hlen
  simp at hlen

theorem dayRows_insertRow (s : AuditLog ν) (a : NewRow ν) (tenantId : Nat) (day : Int) :
    dayRows (insertRow F H s a).content tenantId day =
      dayRows s.content tenantId day ++ [newRow F H s a].filter (onDay tenantId day) :=
  List.filter_append _ _

theorem getLast?_filter_of_getLast? {α : Type*} {l : List α} {p : α → Bool} {x : α}
    (hx : l.getLast? = some x) (hp : p x = true) : (l.filter p).getLast? = some x := by
  obtain ⟨l', rfl⟩ := List.getLast?_eq_some_iff.1 hx
  rw [List.filter_append, List.filter_cons_of_pos hp]
  simp

theorem passes_newRow {s : AuditLog ν} {a : NewRow ν} (hs : DaysPass s) (ha : DayContinues s a)
    {q : AuditRow ν .auditLog}
    (hq : q ∈ (dayRows s.content a.tenantId (a.body.ts / dayMicros)).getLast?) :
    Passes q (newRow F H s a) := by
  intro _
  rw [dayRows_eq_filter] at hq
  have hmem := List.mem_filter.1 (List.mem_of_getLast? hq)
  have hday : dayOf q = a.body.ts / dayMicros := by simpa using hmem.2
  rcases ha with hlast | hnone
  · cases hl : (tenantRows s.rows a.tenantId).getLast? with
    | none =>
      have hnil := List.getLast?_eq_none_iff.1 hl
      have hmem' : q ∈ tenantRows s.rows a.tenantId := hmem.1
      rw [hnil] at hmem'
      simp at hmem'
    | some r =>
      have hr := hlast r hl
      have hsame : ((tenantRows s.rows a.tenantId).filter
          fun r => dayOf r = a.body.ts / dayMicros).getLast? = some r :=
        getLast?_filter_of_getLast? hl (by simpa using hr)
      have hqr : some q = some r := hq.symm.trans hsame
      obtain rfl := Option.some.inj hqr
      have hne := hs.hashed q (List.mem_filter.1 (List.mem_of_getLast? hl)).1
      show priorHash s.rows a.tenantId = q.rowHash
      unfold priorHash
      rw [hl]
      simp [hne]
  · exact absurd hday (hnone q hmem.1)

theorem DaysPass.insertRow {s : AuditLog ν} {a : NewRow ν} (hs : DaysPass s)
    (ha : DayContinues s a) : DaysPass (insertRow F H s a) := by
  constructor
  · intro tenantId day
    rw [dayRows_insertRow]
    by_cases hon : onDay tenantId day (newRow F H s a) = true
    · rw [List.filter_cons_of_pos hon, List.filter_nil]
      obtain ⟨htenant, hday⟩ := onDay_iff.1 hon
      have ht : a.tenantId = tenantId := htenant
      have hd : a.body.ts / dayMicros = day := hday
      rw [List.isChain_append]
      refine ⟨hs.days tenantId day, List.isChain_singleton _, ?_⟩
      intro q hq r hr
      simp only [List.head?_cons, Option.mem_def, Option.some.injEq] at hr
      rw [← hr]
      rw [← ht, ← hd] at hq
      exact passes_newRow F H hs ha hq
    · rw [List.filter_cons_of_neg hon, List.filter_nil, List.append_nil]
      exact hs.days tenantId day
  · intro r hr
    rcases List.mem_append.1 hr with hr | hr
    · exact hs.hashed r hr
    · rw [List.mem_singleton] at hr
      rw [hr]
      exact hashText_ne_empty H _

theorem daysPass_empty : DaysPass (AuditLog.empty : AuditLog ν) :=
  ⟨fun _ _ => List.IsChain.nil, by simp [AuditLog.empty]⟩

/-- Both verifiers are silent about `prev_hash` on every day of every tenant. -/
def NoAlarm (sigOk : Attestation → Bool) (s : AuditLog ν) : Prop :=
  ∀ tenantId day, (∀ att, NoFailure .prevHashMismatch (verifyDay F H sigOk s.content tenantId day att)) ∧
    NoFailure .prevHashMismatch (goVerifyDay F H s.content tenantId day)

theorem no_alarm_along_run (sigOk : Attestation → Bool) {l : List (NewRow ν)}
    (hl : EachStep (insertRow F H) DayContinues AuditLog.empty l) :
    Always (insertRow F H) (NoAlarm F H sigOk) AuditLog.empty l := by
  have hdays : Always (insertRow F H) DaysPass AuditLog.empty l :=
    always_of_eachStep (fun s a hs ha => hs.insertRow F H ha) daysPass_empty hl
  apply hdays.mono
  intro s hs tenantId day
  refine ⟨?_, ?_⟩
  · intro att
    exact (noPrevFailure_verifyDay F H).2 (hs.days tenantId day)
  · exact (noPrevFailure_goVerifyDay F H).2 (hs.days tenantId day)

/-- The login row of 2026-05-12 without its JSON column, moved by some days. -/
def loginAt (days : Int) : NewRow (Fin 10) :=
  ⟨1, 0, false, { loginRow with ts := loginRow.ts + days * dayMicros, afterJson := none }⟩

theorem no_alarm_over_midnight :
    Always (insertRow smallNumbers sha256) (NoAlarm smallNumbers sha256 fun _ => true)
      AuditLog.empty [loginAt 0, loginAt 0, loginAt 1] :=
  no_alarm_along_run smallNumbers sha256 _ (by decide +kernel)

def HashAgrees (s : AuditLog ν) (a : NewRow ν) : Prop :=
  recomputeRowHash F H (newRow F H s a) = (newRow F H s a).rowHash ∧
    goRowHash F H (newRow F H s a) = (newRow F H s a).rowHash

theorem hashAgrees_of_canonicalAgree {s : AuditLog ν} {a : NewRow ν}
    (h : CanonicalAgree F (priorHash s.rows a.tenantId) a.tenantId (triggerId (s.statedId a))
      (s.idOf a) a.body) : HashAgrees F H s a := by
  obtain ⟨hts, hgo⟩ := h
  exact ⟨congrArg (hashText H) (hts.trans hgo), congrArg (hashText H) hgo⟩

/-- With its id stated, which the trigger hashes as the verifiers do. -/
def statedLoginAt (days : Int) : NewRow (Fin 10) := { loginAt days with statesId := true }

theorem hashAgrees_statedLoginAt (s : AuditLog (Fin 10)) (days : Int) :
    HashAgrees smallNumbers sha256 s (statedLoginAt days) := by
  have hms : (statedLoginAt days).body.ts % 1000 = 0 := by
    show (1778569200123000 + days * 86400000000) % 1000 = 0
    omega
  apply hashAgrees_of_canonicalAgree
  rw [canonicalAgree_iff_fields]
  exact ⟨rfl, jsDate_eq_isoMicros.2 hms, ⟨rfl, rfl⟩, rfl, rfl⟩

/-- A row written after midnight with the time of the evening before. -/
theorem late_row_raises_alarm :
    EachStep (insertRow smallNumbers sha256) (HashAgrees smallNumbers sha256) AuditLog.empty
      [statedLoginAt 0, statedLoginAt 1, statedLoginAt 0] ∧
    ¬ Always (insertRow smallNumbers sha256) (NoAlarm smallNumbers sha256 fun _ => true)
      AuditLog.empty [statedLoginAt 0, statedLoginAt 1, statedLoginAt 0] := by
  have hagrees := hashAgrees_statedLoginAt
  refine ⟨⟨hagrees _ _, hagrees _ _, hagrees _ _, trivial⟩, ?_⟩
  intro h
  have hday := (noPrevFailure_goVerifyDay smallNumbers sha256).1 (h.last 1 20585).2
  revert hday
  decide +kernel

end Audit

end Vici2
