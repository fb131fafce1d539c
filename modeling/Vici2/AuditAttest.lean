import Vici2.AuditTrigger

/-! The daily attestation. The worker signs a payload and inserts its fields into
`audit_attestation`; the verifier rebuilds the payload from the row. The time of
the signature is taken from two clocks and cut to two precisions. -/

namespace Vici2

namespace Audit

open IsoTime

/-- JavaScript numbers made of `BIGINT` values, and the values stored for their
decimal texts. -/
structure JsNumbers (ν : Type) where
  ofBigInt : Nat → ν
  stored : ν → Nat
  reads_back : ∀ n, ofBigInt (stored (ofBigInt n)) = ofBigInt n
  stored_eq_zero : ∀ n, stored (ofBigInt n) = 0 ↔ n = 0

structure KeyId where
  text : String
  plain : ∀ c ∈ text.toList, c.isAlphanum = true ∨ c = '-'
  fits : text.length ≤ 64

/-- The time of the worker when it signs, in milliseconds, and `NOW(6)` of the
database when it inserts; years have four digits. -/
structure Clocks where
  now : Int
  dbNow : Int
  now_range : 0 ≤ now ∧ now < 253402300800000
  dbNow_range : 0 ≤ dbNow ∧ dbNow < 253402300800000000

def tableName : AuditTable → String
  | .auditLog => "audit_log"
  | .callWindowAudit => "call_window_audit"
  | .originateAudit => "originate_audit"
  | .consentLog => "consent_log"
  | .dncSyncLog => "dnc_sync_log"

variable {ν : Type} {t : AuditTable}

def numOrNull : Option ν → Json ν
  | none => .null
  | some x => .num x

def attestationPayload (N : JsNumbers ν) (tenantId : ν) (table : String) (date : List Char)
    (rowCount : ν) (firstId lastId : Option ν)
    (firstRowPrevHash lastRowRowHash merkleRoot : String) (computedAt : List Char)
    (keyId : String) : Json ν :=
  .obj [("vici2_audit_attestation", .obj [
    ("version", .num (N.ofBigInt 1)),
    ("tenant_id", .num tenantId),
    ("table", .str table),
    ("date", .str (String.ofList date)),
    ("row_count", .num rowCount),
    ("first_id", numOrNull firstId),
    ("last_id", numOrNull lastId),
    ("first_row_prev_hash", .str firstRowPrevHash),
    ("last_row_row_hash", .str lastRowRowHash),
    ("merkle_root", .str merkleRoot),
    ("leaf_hash_algo", .str "sha256-rfc6962"),
    ("node_hash_algo", .str "sha256-rfc6962"),
    ("computed_at", .str (String.ofList computedAt)),
    ("key_id", .str keyId)])]

/-- The rows of the window; `dnc_sync_log` is read for all tenants. -/
def attestRows (c : AuditContent ν t) (tenantId : Nat) (day : Int) : List (AuditRow ν t) :=
  if t = .dncSyncLog then c.rows.filter fun r => dayOf r = day else dayRows c tenantId day

def priorAttestation (attestations : List Attestation) (tenantId : Nat) (t : AuditTable)
    (day : Int) : Option Attestation :=
  let earlier := attestations.filter fun a =>
    decide (a.tenantId = tenantId) && decide (a.table = t) && decide (a.windowDate < day)
  earlier.find? fun a => earlier.all fun b => decide (b.windowDate ≤ a.windowDate)

def chainEnds (prior : Option Attestation) (rows : List (AuditRow ν t)) : String × String :=
  match rows.head?, rows.getLast? with
  | some r, some r' => (r.prevHash, r'.rowHash)
  | _, _ =>
    let carried := (prior.map Attestation.lastRowRowHash).getD zeroHash
    (carried, carried)

def sameKey (a b : Attestation) : Bool :=
  decide (a.tenantId = b.tenantId) && decide (a.table = b.table) &&
    decide (a.windowDate = b.windowDate)

/-- `INSERT IGNORE` under the unique key `uk_t_table_date`. -/
def insertAttestation (attestations : List Attestation) (a : Attestation) : List Attestation :=
  if attestations.any (sameKey a) then attestations else attestations ++ [a]

/-- `toISOString` with its milliseconds replaced by six zeros. -/
def signedTime (now : Int) : List Char := secondsText (now / 1000) ++ ".000000Z".toList

structure AttestResult (ν : Type) where
  attestations : List Attestation
  payload : Json ν

section Attest

variable (F : NumberTexts ν) (N : JsNumbers ν) (H : Digest) (sign : List Char → String)
  (key : KeyId)

def attestWindow (clocks : Clocks) (c : AuditContent ν t) (tenantId : Nat) (day : Int)
    (attestations : List Attestation) : AttestResult ν :=
  let rows := attestRows c tenantId day
  let ends := chainEnds (priorAttestation attestations tenantId t day) rows
  let merkleRoot := buildRootFromRows H rows
  let firstId := rows.head?.map fun r => N.ofBigInt r.id
  let lastId := rows.getLast?.map fun r => N.ofBigInt r.id
  let payload := attestationPayload N (N.ofBigInt tenantId) (tableName t) (dateText day)
    (N.ofBigInt rows.length) firstId lastId ends.1 ends.2 merkleRoot (signedTime clocks.now)
    key.text
  let row : Attestation :=
    { tenantId := tenantId
      table := t
      windowDate := day
      rowCount := rows.length
      firstId := firstId.map N.stored
      lastId := lastId.map N.stored
      firstRowPrevHash := ends.1
      lastRowRowHash := ends.2
      merkleRoot := merkleRoot
      keyId := key.text
      signatureB64 := sign (jcs F payload)
      computedAt := clocks.dbNow }
  ⟨insertAttestation attestations row, payload⟩

/-- A `BIGINT` that is 0 counts as missing. -/
def numberOrNull : Option Nat → Option ν
  | none => none
  | some n => if n = 0 then none else some (N.ofBigInt n)

def signedPayload (a : Attestation) : Json ν :=
  attestationPayload N (N.ofBigInt a.tenantId) (tableName a.table)
    ((millisText (a.windowDate * 86400000)).take 10) (N.ofBigInt a.rowCount)
    (numberOrNull N a.firstId) (numberOrNull N a.lastId) a.firstRowPrevHash a.lastRowRowHash
    a.merkleRoot (toISOStringMicros (toJsDate a.computedAt)) a.keyId

def verifySignature {κ : Type} (pubKeys : String → Option κ) (verify : κ → List Char → String → Bool)
    (a : Attestation) : Bool :=
  match pubKeys a.keyId with
  | none => false
  | some k => verify k (jcs F (signedPayload N a)) a.signatureB64

variable {N}

theorem numOrNull_inj {a b : Option ν} (h : numOrNull a = numOrNull b) : a = b := by
  cases a with
  | none =>
    cases b with
    | none => rfl
    | some y => cases h
  | some x =>
    cases b with
    | none => cases h
    | some y => rw [Json.num.inj h]

theorem numberOrNull_stored (r : Option (AuditRow ν t)) :
    numberOrNull N ((r.map fun r => N.ofBigInt r.id).map N.stored) =
      r.map (fun r => N.ofBigInt r.id) ↔ ∀ q ∈ r, q.id ≠ 0 := by
  cases r with
  | none => simp [numberOrNull]
  | some q =>
    by_cases hq : q.id = 0
    · have hzero : N.stored (N.ofBigInt 0) = 0 := (N.stored_eq_zero 0).2 rfl
      simp [numberOrNull, hq, hzero]
    · have hne : N.stored (N.ofBigInt q.id) ≠ 0 := fun h => hq ((N.stored_eq_zero q.id).1 h)
      simp [numberOrNull, hne, hq, N.reads_back]

theorem computedAt_eq_iff (clocks : Clocks) :
    toISOStringMicros (toJsDate clocks.dbNow) = signedTime clocks.now ↔
      clocks.dbNow / 1000000 = clocks.now / 1000 ∧ clocks.dbNow / 1000 % 1000 = 0 := by
  obtain ⟨hn0, hn1⟩ := clocks.now_range
  obtain ⟨hd0, hd1⟩ := clocks.dbNow_range
  have hsec : clocks.dbNow / 1000 / 1000 = clocks.dbNow / 1000000 := by omega
  have hleft : toISOStringMicros (toJsDate clocks.dbNow) =
      secondsText (clocks.dbNow / 1000000) ++
        ('.' :: (fixedDigits 3 (clocks.dbNow / 1000 % 1000).toNat ++ ['0', '0', '0', 'Z'])) := by
    unfold toISOStringMicros toJsDate millisText
    rw [hsec, List.append_assoc, List.cons_append]
  have hright : signedTime clocks.now =
      secondsText (clocks.now / 1000) ++ ('.' :: (['0', '0', '0'] ++ ['0', '0', '0', 'Z'])) := rfl
  rw [hleft, hright]
  constructor
  · intro h
    obtain ⟨hseconds, hrest⟩ :=
      List.append_inj h (by rw [length_secondsText, length_secondsText])
    have hdigits := List.append_cancel_right (List.cons.inj hrest).2
    have hmillis := fixedDigits_three_eq_zero.1 hdigits
    refine ⟨?_, by omega⟩
    exact secondsText_inj (by omega) (by omega) (by omega) (by omega) hseconds
  · rintro ⟨hseconds, hmillis⟩
    have hdigits : fixedDigits 3 (clocks.dbNow / 1000 % 1000).toNat = ['0', '0', '0'] :=
      fixedDigits_three_eq_zero.2 (by omega)
    rw [hseconds, hdigits]

theorem attestationPayload_eq_iff {tenantId rowCount : ν} {table first last root key : String}
    {date computedAt computedAt' : List Char} {firstId lastId firstId' lastId' : Option ν} :
    attestationPayload N tenantId table date rowCount firstId lastId first last root computedAt key =
        attestationPayload N tenantId table date rowCount firstId' lastId' first last root computedAt'
          key ↔
      firstId = firstId' ∧ lastId = lastId' ∧ computedAt = computedAt' := by
  constructor
  · intro h
    simp only [attestationPayload, Json.obj.injEq, List.cons.injEq, Prod.mk.injEq, true_and,
      and_true, Json.str.injEq] at h
    obtain ⟨hfirst, hlast, htime⟩ := h
    exact ⟨numOrNull_inj hfirst, numOrNull_inj hlast, String.ofList_injective htime⟩
  · rintro ⟨rfl, rfl, rfl⟩
    rfl

variable (N)

/-- Every row that `attestWindow` adds is rebuilt to the payload it signed. -/
def RoundTrips (clocks : Clocks) (c : AuditContent ν t) (tenantId : Nat) (day : Int)
    (attestations : List Attestation) : Prop :=
  let result := attestWindow F N H sign key clocks c tenantId day attestations
  ∀ a ∈ result.attestations, a ∉ attestations → signedPayload N a = result.payload

def WindowTaken (t : AuditTable) (tenantId : Nat) (day : Int) (attestations : List Attestation) :
    Prop :=
  ∃ a ∈ attestations, a.tenantId = tenantId ∧ a.table = t ∧ a.windowDate = day

theorem any_sameKey {attestations : List Attestation} {a : Attestation} :
    attestations.any (sameKey a) = true ↔
      WindowTaken a.table a.tenantId a.windowDate attestations := by
  unfold WindowTaken sameKey
  simp only [List.any_eq_true, Bool.and_eq_true, decide_eq_true_eq]
  constructor
  · rintro ⟨b, hb, ⟨ht, htable⟩, hday⟩
    exact ⟨b, hb, ht.symm, htable.symm, hday.symm⟩
  · rintro ⟨b, hb, ht, htable, hday⟩
    exact ⟨b, hb, ⟨ht.symm, htable.symm⟩, hday.symm⟩

theorem forall_inserted_iff {attestations : List Attestation} {a : Attestation}
    {P : Attestation → Prop} :
    (∀ b ∈ insertAttestation attestations a, b ∉ attestations → P b) ↔
      WindowTaken a.table a.tenantId a.windowDate attestations ∨ P a := by
  unfold insertAttestation
  by_cases htaken : attestations.any (sameKey a) = true
  · rw [if_pos htaken]
    exact ⟨fun _ => Or.inl (any_sameKey.1 htaken), fun _ b hb hnb => absurd hb hnb⟩
  · rw [if_neg htaken]
    have hfree : ¬ WindowTaken a.table a.tenantId a.windowDate attestations :=
      fun h => htaken (any_sameKey.2 h)
    have hnew : a ∉ attestations := fun h => hfree ⟨a, h, rfl, rfl, rfl⟩
    rw [or_iff_right hfree]
    constructor
    · intro h
      exact h a (by simp) hnew
    · intro h b hb hnb
      rcases List.mem_append.1 hb with hb | hb
      · exact absurd hb hnb
      · rw [List.mem_singleton.1 hb]
        exact h

theorem attestation_round_trips_iff (clocks : Clocks) (c : AuditContent ν t) (tenantId : Nat)
    (day : Int) (attestations : List Attestation) :
    RoundTrips F N H sign key clocks c tenantId day attestations ↔
      WindowTaken t tenantId day attestations ∨
        ((∀ r ∈ (attestRows c tenantId day).head?, r.id ≠ 0) ∧
          (∀ r ∈ (attestRows c tenantId day).getLast?, r.id ≠ 0) ∧
          clocks.dbNow / 1000000 = clocks.now / 1000 ∧ clocks.dbNow / 1000 % 1000 = 0) := by
  unfold RoundTrips attestWindow
  dsimp only
  rw [forall_inserted_iff]
  unfold signedPayload
  dsimp only
  rw [take_millisText_midnight, attestationPayload_eq_iff, numberOrNull_stored,
    numberOrNull_stored, computedAt_eq_iff]

theorem verifySignature_of_roundTrips {κ : Type} {pubKeys : String → Option κ}
    {verify : κ → List Char → String → Bool} {k : κ} (hkey : pubKeys key.text = some k)
    (hsign : ∀ m, verify k m (sign m) = true) {clocks : Clocks} {c : AuditContent ν t}
    {tenantId : Nat} {day : Int} {attestations : List Attestation}
    (h : RoundTrips F N H sign key clocks c tenantId day attestations) {a : Attestation}
    (ha : a ∈ (attestWindow F N H sign key clocks c tenantId day attestations).attestations)
    (hnew : a ∉ attestations) : verifySignature F N pubKeys verify a = true := by
  have hpayload := h a ha hnew
  have hrow : a.keyId = key.text ∧ a.signatureB64 =
      sign (jcs F (attestWindow F N H sign key clocks c tenantId day attestations).payload) := by
    unfold attestWindow insertAttestation at ha
    dsimp only at ha
    split at ha
    · exact absurd ha hnew
    · rcases List.mem_append.1 ha with ha | ha
      · exact absurd ha hnew
      · rw [List.mem_singleton.1 ha]
        exact ⟨rfl, rfl⟩
  unfold verifySignature
  rw [hrow.1, hkey, hrow.2, hpayload]
  exact hsign _

end Attest

theorem mem_digits_of_isDigit {c : Char} (h : c.isDigit = true) :
    c ∈ "0123456789+-.eE".toList := by
  obtain ⟨hlow, hhigh⟩ : 48 ≤ c.toNat ∧ c.toNat ≤ 57 := Char.isDigit_iff_toNat.1 h
  have hc : c = Char.ofNat c.toNat := (Char.ofNat_toNat c).symm
  rw [hc]
  interval_cases c.toNat <;> decide

def plainDigits : NumberTexts Nat where
  js := natText
  go := natText
  mysql := natText
  chars x c hc := by
    have hmem : c ∈ Nat.toDigits 10 x := by simpa [natText] using hc
    have hdigit := Nat.isDigit_of_mem_toDigits (by omega) (by omega) hmem
    exact mem_digits_of_isDigit hdigit

def exactNumbers : JsNumbers Nat := ⟨id, id, fun _ => rfl, fun _ => Iff.rfl⟩

def auditKey : KeyId :=
  ⟨"ed25519-audit-2026-1", List.all_iff_forall_prop.1 (by decide), by decide⟩

/-- Signed at 03:30:00.500, inserted twelve milliseconds later. -/
def nightlyClocks : Clocks := ⟨1778643000500, 1778643000512345, by decide, by decide⟩

theorem nightly_attestation_differs :
    ¬ RoundTrips plainDigits exactNumbers sha256 (fun _ => "") auditKey nightlyClocks
      (⟨[], List.Pairwise.nil⟩ : AuditContent Nat .auditLog) 1 20585 [] := by
  intro h
  have hpayload := h _ List.mem_cons_self (by simp)
  have htime : toISOStringMicros (toJsDate nightlyClocks.dbNow) = signedTime nightlyClocks.now :=
    (attestationPayload_eq_iff.1 hpayload).2.2
  revert htime
  decide

end Audit

end Vici2
