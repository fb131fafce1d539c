import Mathlib.Data.Bool.AllAny
import Mathlib.Data.PNat.Basic
import Vici2.IsoTime
import Vici2.JsonText

/-! The canonical strings that are hashed into the audit chain: the builders of
the API verifier for the five hash-chained tables, the dialer's builder for
`audit_log`, and the expression of the `audit_log` insert trigger. -/

namespace Vici2

namespace Audit

open Json IsoTime

def sep : Char := '\x1f'

def nullSentinel : List Char := ['\\', 'N']

def shortEscape : Char → Option Char
  | '"' => some '"'
  | '\\' => some '\\'
  | '\x08' => some 'b'
  | '\x0c' => some 'f'
  | '\n' => some 'n'
  | '\r' => some 'r'
  | '\t' => some 't'
  | _ => none

def unicodeEscape (c : Char) : List Char :=
  ['\\', 'u', Nat.digitChar (c.toNat / 4096 % 16), Nat.digitChar (c.toNat / 256 % 16),
    Nat.digitChar (c.toNat / 16 % 16), Nat.digitChar (c.toNat % 16)]

/-- The escape of a string character; `special` are those an encoder escapes
beyond what JSON asks for. -/
def escapeChar (special : List Char) (c : Char) : List Char :=
  match shortEscape c with
  | some e => ['\\', e]
  | none => if c.toNat < 32 ∨ c ∈ special then unicodeEscape c else [c]

/-- The texts of the numbers of a JSON value as the three runtimes write them. -/
structure NumberTexts (ν : Type*) where
  js : ν → List Char
  go : ν → List Char
  mysql : ν → List Char
  chars : ∀ x, ∀ c ∈ js x ++ go x ++ mysql x, c ∈ "0123456789+-.eE".toList

def lexLe : List Nat → List Nat → Bool
  | [], _ => true
  | _ :: _, [] => false
  | a :: as, b :: bs => decide (a < b) || (decide (a = b) && lexLe as bs)

def utf16 (s : String) : List Nat :=
  s.toList.flatMap fun c =>
    if c.toNat < 0x10000 then [c.toNat]
    else [0xd800 + (c.toNat - 0x10000) / 1024, 0xdc00 + (c.toNat - 0x10000) % 1024]

def utf8 (s : String) : List UInt8 := s.toByteArray.data.toList

theorem utf8_inj {s s' : String} (h : utf8 s = utf8 s') : s = s' := by
  apply String.toByteArray_inj.1
  apply ByteArray.ext
  exact Array.toList_inj.1 h

def jsKeyLe (a b : String) : Bool := lexLe (utf16 a) (utf16 b)

def goKeyLe (a b : String) : Bool := lexLe ((utf8 a).map UInt8.toNat) ((utf8 b).map UInt8.toNat)

/-- MySQL keeps the keys of an object by length, and by bytes among equals. -/
def mysqlKeyLe (a b : String) : Bool :=
  decide ((utf8 a).length < (utf8 b).length) ||
    (decide ((utf8 a).length = (utf8 b).length) && goKeyLe a b)

theorem digitChar_inside {n : Nat} (h : n < 16) (t : List Char) :
    scan .inside (Nat.digitChar n :: t) = scan .inside t := by
  interval_cases n <;> rfl

theorem scan_unicodeEscape (c : Char) : scan .inside (unicodeEscape c) = some .inside := by
  have hopen : ∀ t, scan .inside ('\\' :: 'u' :: t) = scan .inside t := fun _ => rfl
  unfold unicodeEscape
  rw [hopen, digitChar_inside (by omega), digitChar_inside (by omega), digitChar_inside (by omega),
    digitChar_inside (by omega)]
  rfl

theorem shortEscape_quote {c : Char} (h : shortEscape c = none) : c ≠ '"' ∧ c ≠ '\\' := by
  refine ⟨?_, ?_⟩
  · rintro rfl
    simp [shortEscape] at h
  · rintro rfl
    simp [shortEscape] at h

theorem scan_escapeChar (special : List Char) (c : Char) :
    scan .inside (escapeChar special c) = some .inside := by
  unfold escapeChar
  cases he : shortEscape c with
  | some e => rfl
  | none =>
    dsimp only
    split
    · exact scan_unicodeEscape c
    · obtain ⟨hq, hb⟩ := shortEscape_quote he
      simp [scan, scanStep, hq, hb]

theorem scan_number {t : List Char} (h : ∀ c ∈ t, c ∈ "0123456789+-.eE".toList) :
    scan .outside t = some .outside := by
  have hstep : ∀ c ∈ "0123456789+-.eE".toList, scanStep .outside c = some .outside :=
    List.all_iff_forall_prop.1 (by decide)
  induction t with
  | nil => rfl
  | cons c t ih =>
    have hc := hstep c (h c List.mem_cons_self)
    simp only [scan, hc, Option.bind_some]
    exact ih fun d hd => h d (List.mem_cons_of_mem _ hd)

section Encoders

variable {ν : Type*} (F : NumberTexts ν)

def jcsStyle : Style ν where
  escape := escapeChar ['\u2028', '\u2029']
  number := F.js
  comma := [',']
  colon := [':']
  keyLe := jsKeyLe
  escape_inside := scan_escapeChar _
  number_outside x := scan_number fun c hc => F.chars x c (by simp [hc])

/-- `marshalJCS` of the dialer over `json.Marshal`, which also escapes for HTML. -/
def goStyle : Style ν where
  escape := escapeChar ['<', '>', '&', '\u2028', '\u2029']
  number := F.go
  comma := [',']
  colon := [':']
  keyLe := goKeyLe
  escape_inside := scan_escapeChar _
  number_outside x := scan_number fun c hc => F.chars x c (by simp [hc])

def mysqlStyle : Style ν where
  escape := escapeChar []
  number := F.mysql
  comma := [',', ' ']
  colon := [':', ' ']
  keyLe := mysqlKeyLe
  escape_inside := scan_escapeChar _
  number_outside x := scan_number fun c hc => F.chars x c (by simp [hc])

def jcs (v : Json ν) : List Char := render (jcsStyle F) v

def marshalJCS (v : Json ν) : List Char := render (goStyle F) v

def jsonExtract (v : Json ν) : List Char := render (mysqlStyle F) v

/-- `LPAD(.., 20, '0')` -/
def lpad20 (n : Nat) : List Char :=
  let t := Nat.toDigits 10 n
  List.replicate (20 - t.length) '0' ++ t

def natText (n : Nat) : List Char := Nat.toDigits 10 n

def intText (n : Int) : List Char := (toString n).toList

def nullOr {α : Type*} (text : α → List Char) : Option α → List Char
  | none => nullSentinel
  | some x => text x

def nullOrStr : Option String → List Char := nullOr String.toList

/-- A JavaScript date holds milliseconds; three zeros are appended. -/
def toISOStringMicros (ms : Int) : List Char := millisText ms ++ ['0', '0', '0', 'Z']

def toJsDate (us : Int) : Int := us / 1000

def isoMicros (us : Int) : List Char := microsText us ++ ['Z']

/-- The JavaScript value of a JSON column; its `null` is that of the database. -/
def nullOrJson : Option (Json ν) → List Char
  | none => nullSentinel
  | some .null => nullSentinel
  | some v => jcs F v

def jcsJSON : Option (Json ν) → List Char
  | none => nullSentinel
  | some .null => nullSentinel
  | some v => marshalJCS F v

def joinSep (fields : List (List Char)) : String := String.ofList (joinWith [sep] fields)

structure AuditLogBody (ν : Type*) where
  ts : Int
  actorUserId : Option Nat
  actorKind : String
  action : String
  entityType : String
  entityId : Option String
  beforeJson : Option (Json ν)
  afterJson : Option (Json ν)
  requestId : Option String
  ipAddress : Option String
  userAgent : Option String

structure CallWindowBody where
  createdAt : Int
  leadId : Nat
  phoneE164 : String
  campaignId : String
  decision : String
  reason : String
  tzIana : Option String
  tzConfidence : Option String
  stateCode : Option String
  zip : Option String
  partyLocal : Option Int
  partyDow : Option Int
  effectiveOpenMin : Option Int
  effectiveCloseMin : Option Int
  ruleApplied : Option String
  enforcementPoint : String
  nextOpenAt : Option Int
  callUuid : Option String

structure OriginateBody (ν : Type*) where
  originatedAt : Int
  leadId : Nat
  phoneE164 : String
  campaignId : Option String
  outcome : String
  tcpaReason : Option String
  dncDecision : Option String
  dncSources : Option (Json ν)
  tcpaDecision : Option String
  callUuid : Option String

structure ConsentBody where
  callUuid : String
  leadId : Nat
  phoneE164 : String
  promptId : String
  dtmfResponse : Option String
  outcome : String
  language : String
  promptPlayedAt : Int

structure DncSyncBody where
  source : String
  kind : String
  fileHash : Option String
  added : Int
  removed : Int
  startedAt : Int
  completedAt : Option Int

def chainFields (prevHash : String) (tenantId : Nat) (table : String) (id : Nat)
    (rest : List (List Char)) : List (List Char) :=
  prevHash.toList :: lpad20 tenantId :: table.toList :: lpad20 id :: rest

def jsDate (us : Int) : List Char := toISOStringMicros (toJsDate us)

def canonicalAuditLog (prevHash : String) (tenantId id : Nat) (f : AuditLogBody ν) : String :=
  joinSep (chainFields prevHash tenantId "audit_log" id [
    jsDate f.ts, nullOr natText f.actorUserId, f.actorKind.toList, f.action.toList,
    f.entityType.toList, nullOrStr f.entityId, nullOrJson F f.beforeJson, nullOrJson F f.afterJson,
    nullOrStr f.requestId, nullOrStr f.ipAddress, nullOrStr f.userAgent])

def canonicalCallWindowAudit (prevHash : String) (tenantId id : Nat) (f : CallWindowBody) : String :=
  joinSep (chainFields prevHash tenantId "call_window_audit" id [
    jsDate f.createdAt, natText f.leadId, f.phoneE164.toList, f.campaignId.toList,
    f.decision.toList, f.reason.toList, nullOrStr f.tzIana, nullOrStr f.tzConfidence,
    nullOrStr f.stateCode, nullOrStr f.zip, nullOr jsDate f.partyLocal, nullOr intText f.partyDow,
    nullOr intText f.effectiveOpenMin, nullOr intText f.effectiveCloseMin, nullOrStr f.ruleApplied,
    f.enforcementPoint.toList, nullOr jsDate f.nextOpenAt, nullOrStr f.callUuid])

/-- The last field repeats the sources. -/
def canonicalOriginateAudit (prevHash : String) (tenantId id : Nat) (f : OriginateBody ν) : String :=
  joinSep (chainFields prevHash tenantId "originate_audit" id [
    jsDate f.originatedAt, natText f.leadId, f.phoneE164.toList, nullOrStr f.campaignId,
    f.outcome.toList, nullOrStr f.tcpaReason, nullOrStr f.dncDecision, nullOrJson F f.dncSources,
    nullOrStr f.tcpaDecision, nullOrStr f.callUuid, nullOrJson F f.dncSources])

def canonicalConsentLog (prevHash : String) (tenantId id : Nat) (f : ConsentBody) : String :=
  joinSep (chainFields prevHash tenantId "consent_log" id [
    f.callUuid.toList, natText f.leadId, f.phoneE164.toList, f.promptId.toList,
    nullOrStr f.dtmfResponse, f.outcome.toList, f.language.toList, jsDate f.promptPlayedAt])

/-- `dnc_sync_log` is global; its tenant field is always 1. -/
def canonicalDncSyncLog (prevHash : String) (id : Nat) (f : DncSyncBody) : String :=
  joinSep (chainFields prevHash 1 "dnc_sync_log" id [
    f.source.toList, f.kind.toList, nullOrStr f.fileHash, intText f.added, intText f.removed,
    jsDate f.startedAt, nullOr jsDate f.completedAt])

/-- `AuditLogRow.Canonicalize` of the dialer. -/
def canonicalize (prevHash : String) (tenantId id : Nat) (r : AuditLogBody ν) : String :=
  joinSep (chainFields prevHash tenantId "audit_log" id [
    isoMicros r.ts, nullOr natText r.actorUserId, r.actorKind.toList, r.action.toList,
    r.entityType.toList, nullOrStr r.entityId, jcsJSON F r.beforeJson, jcsJSON F r.afterJson,
    nullOrStr r.requestId, nullOrStr r.ipAddress, nullOrStr r.userAgent])

/-- `NEW.id` in a trigger that runs before the INSERT: what the statement states. An
`AUTO_INCREMENT` column is 0 until the row is written. -/
def triggerId (stated : Option Nat) : Nat := stated.getD 0

/-- The id that the row is written with; where the statement leaves it out, or states 0, the
next one of the counter. -/
def writtenId (stated : Option Nat) (next : ℕ+) : Nat :=
  if triggerId stated = 0 then next else triggerId stated

/-- The argument of `SHA2` in `audit_log_hash_chain`. -/
def triggerCanonical (prevHash : String) (tenantId newId : Nat) (r : AuditLogBody ν) : String :=
  joinSep (chainFields prevHash tenantId "audit_log" newId [
    isoMicros r.ts, nullOr natText r.actorUserId, r.actorKind.toList, r.action.toList,
    r.entityType.toList, nullOrStr r.entityId, nullOr (jsonExtract F) r.beforeJson,
    nullOr (jsonExtract F) r.afterJson, nullOrStr r.requestId, nullOrStr r.ipAddress,
    nullOrStr r.userAgent])

end Encoders

end Audit

end Vici2
