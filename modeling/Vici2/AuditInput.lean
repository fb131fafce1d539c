import Vici2.Jcs
import Vici2.JsDate

/-! Inputs of the audit log and their canonical strings. The schema keeps the
separator out of the free texts and the serializer out of the JSON texts, so
that the fields are read back from the string; a missing text is written as the
two characters of the null sentinel, which the schema lets a text be. -/

namespace Vici2

namespace AuditInput

open Delimited IsoTime Jcs

def sep : Nat := 0x1f

def nullSentinel : Units := ascii "\\N"

inductive ActorKind
  | user
  | system
  | worker
  | externalApi
  deriving DecidableEq, Repr

def ActorKind.text : ActorKind → Units
  | .user => ascii "user"
  | .system => ascii "system"
  | .worker => ascii "worker"
  | .externalApi => ascii "external_api"

variable {ν : Type*}

/-- An absent member and `null` are one. `beforeJson` and `afterJson` are plain JSON values. -/
structure AuditLogInput (ν : Type*) where
  tenantId : Int
  actorUserId : Option Int
  actorKind : ActorKind
  action : Units
  entityType : Units
  entityId : Option Units
  beforeJson : Value ν
  afterJson : Value ν
  requestId : Option Units
  ipAddress : Option Units
  userAgent : Option Units
  ts : Int
  beforeKeys : UniqueKeys beforeJson
  afterKeys : UniqueKeys afterJson

section Schema

variable (N : NumberText ν)

mutual

/-- `JSON.stringify`: the members of an object stay in their order. -/
def stringifyValue : Value ν → Units
  | .null => ascii "null"
  | .bool true => ascii "true"
  | .bool false => ascii "false"
  | .num n => N.text n
  | .str s => stringify s
  | .arr l => openBracket :: (join comma (stringifyAll l) ++ [closeBracket])
  | .obj l => openBrace :: (join comma (stringifyMembers l) ++ [closeBrace])

def stringifyAll : List (Value ν) → List Units
  | [] => []
  | v :: l => stringifyValue v :: stringifyAll l

def stringifyMembers : List (Units × Value ν) → List Units
  | [] => []
  | (k, v) :: l => (stringify k ++ colon :: stringifyValue v) :: stringifyMembers l

end

def SafeStr (maxLen : Nat) (s : Units) : Prop := s.length ≤ maxLen ∧ sep ∉ s ∧ 0 ∉ s

def SafeJson (v : Value ν) : Prop := (stringifyValue N v).length ≤ 4096

structure Accepted (f : AuditLogInput ν) : Prop where
  action : SafeStr 64 f.action
  entityType : SafeStr 32 f.entityType
  entityId : ∀ s ∈ f.entityId, SafeStr 64 s
  beforeJson : SafeJson N f.beforeJson
  afterJson : SafeJson N f.afterJson
  requestId : ∀ s ∈ f.requestId, SafeStr 64 s
  ipAddress : ∀ s ∈ f.ipAddress, SafeStr 45 s
  userAgent : ∀ s ∈ f.userAgent, SafeStr 255 s
  ts : -JsDate.maxTime ≤ f.ts ∧ f.ts ≤ JsDate.maxTime

end Schema

section Builders

def units (t : List Char) : Units := t.map Char.toNat

def bigintText (n : Int) : List Char :=
  if n < 0 then '-' :: Nat.toDigits 10 n.natAbs else Nat.toDigits 10 n.natAbs

def lpad20 (n : Int) : Units :=
  let t := units (bigintText n)
  List.replicate (20 - t.length) 48 ++ t

/-- Years outside 0 to 9999 take a sign and six digits. -/
def yearText (y : Int) : List Char :=
  if 0 ≤ y ∧ y ≤ 9999 then fixedDigits 4 y.natAbs
  else (if y < 0 then '-' else '+') :: fixedDigits 6 y.natAbs

def part (mark : Char) (k n : Nat) : List Char := mark :: fixedDigits k n

/-- `toISOString` behind the year, without the final `Z`. -/
def afterYear (ms : Int) : List Char :=
  let c := civil (ms / 86400000)
  let s := (ms / 1000 % 86400).toNat
  part '-' 2 c.2.1.toNat ++ (part '-' 2 c.2.2.toNat ++ (part 'T' 2 (s / 3600) ++
    (part ':' 2 (s / 60 % 60) ++ (part ':' 2 (s % 60) ++ part '.' 3 (ms % 1000).toNat))))

def toISOStringMicros (ms : Int) : List Char :=
  yearText (JsDate.year ms) ++ afterYear ms ++ ['0', '0', '0', 'Z']

def nullOrStr (s : Option Units) : Units := s.getD nullSentinel

def nullOrBigint (n : Option Int) : Units := (n.map fun n => units (bigintText n)).getD nullSentinel

def nullOrJson (N : NumberText ν) : Value ν → Units
  | .null => nullSentinel
  | v => serializeValue N v

/-- The fields behind the identifying ones. -/
def bodyFields (N : NumberText ν) (f : AuditLogInput ν) : List Units :=
  [units (toISOStringMicros f.ts), nullOrBigint f.actorUserId, f.actorKind.text, f.action,
    f.entityType, nullOrStr f.entityId, nullOrJson N f.beforeJson, nullOrJson N f.afterJson,
    nullOrStr f.requestId, nullOrStr f.ipAddress, nullOrStr f.userAgent]

def canonicalAuditLog (N : NumberText ν) (prevHash : Units) (id : Int) (f : AuditLogInput ν) :
    Units :=
  join sep (prevHash :: lpad20 f.tenantId :: ascii "audit_log" :: lpad20 id :: bodyFields N f)

end Builders

section Texts

theorem units_inj {s t : List Char} (h : units s = units t) : s = t := by
  have hinj : Function.Injective Char.toNat := fun a b hab => Char.toNat_inj.1 hab
  exact List.map_injective_iff.2 hinj h

theorem digitChars_ge {n : Nat} {c : Char} (h : c ∈ Nat.toDigits 10 n) :
    48 ≤ c.toNat ∧ c.toNat ≤ 57 := by
  have hdigit := Nat.isDigit_of_mem_toDigits (by omega) (by omega) h
  simpa [Char.isDigit, UInt32.le_iff_toNat_le] using hdigit

theorem toDigits_ne_minus (n : Nat) (t : List Char) : Nat.toDigits 10 n ≠ '-' :: t := by
  intro h
  have hmem : '-' ∈ Nat.toDigits 10 n := by
    rw [h]
    exact List.mem_cons_self
  have hge := digitChars_ge hmem
  revert hge
  decide

theorem bigintText_inj {m n : Int} (h : bigintText m = bigintText n) : m = n := by
  unfold bigintText at h
  split at h <;> split at h
  · have habs := Delimited.toDigits_inj (List.cons.inj h).2
    omega
  · exact absurd h.symm (toDigits_ne_minus _ _)
  · exact absurd h (toDigits_ne_minus _ _)
  · have habs := Delimited.toDigits_inj h
    omega

theorem bigintText_chars {n : Int} {c : Char} (h : c ∈ bigintText n) :
    45 ≤ c.toNat ∧ c.toNat ≤ 57 := by
  unfold bigintText at h
  split at h
  · rcases List.mem_cons.1 h with rfl | h
    · decide
    · have hge := digitChars_ge h
      omega
  · have hge := digitChars_ge h
    omega

theorem fixedDigits_chars {k n : Nat} {c : Char} (h : c ∈ fixedDigits k n) :
    48 ≤ c.toNat ∧ c.toNat ≤ 57 := by
  have hdigit : ∀ d, d < 10 → 48 ≤ (Nat.digitChar d).toNat ∧ (Nat.digitChar d).toNat ≤ 57 := by
    decide
  obtain ⟨i, -, rfl⟩ := List.mem_map.1 h
  exact hdigit _ (Nat.mod_lt _ (by omega))

theorem yearText_inj {y z : Int} (hy : y.natAbs < 1000000) (hz : z.natAbs < 1000000)
    (h : yearText y = yearText z) : y = z := by
  have hlen := congrArg List.length h
  unfold yearText at h hlen
  by_cases hy4 : 0 ≤ y ∧ y ≤ 9999
  · by_cases hz4 : 0 ≤ z ∧ z ≤ 9999
    · rw [if_pos hy4, if_pos hz4] at h
      have hmod := fixedDigits_inj h
      omega
    · rw [if_pos hy4, if_neg hz4, List.length_cons, length_fixedDigits, length_fixedDigits] at hlen
      omega
  · by_cases hz4 : 0 ≤ z ∧ z ≤ 9999
    · rw [if_neg hy4, if_pos hz4, List.length_cons, length_fixedDigits, length_fixedDigits] at hlen
      omega
    · rw [if_neg hy4, if_neg hz4] at h
      obtain ⟨hsign, hdigits⟩ := List.cons.inj h
      have hmod := fixedDigits_inj hdigits
      have hneg : y < 0 ↔ z < 0 := by
        by_cases hy0 : y < 0 <;> by_cases hz0 : z < 0 <;> simp [hy0, hz0] at hsign ⊢
      omega

theorem year_bound {ms : Int} (h : -JsDate.maxTime ≤ ms ∧ ms ≤ JsDate.maxTime) :
    (JsDate.year ms).natAbs < 1000000 := by
  unfold JsDate.maxTime at h
  have hday : -100000000 ≤ ms / JsDate.msPerDay ∧ ms / JsDate.msPerDay ≤ 100000000 := by
    unfold JsDate.msPerDay
    omega
  have hdoe : 0 ≤ (ms / JsDate.msPerDay + 719468) % 146097 ∧
      (ms / JsDate.msPerDay + 719468) % 146097 ≤ 146096 := by omega
  have hyoe := yearOfEra_bounds hdoe.1 hdoe.2
  unfold JsDate.year
  rw [civil_eq]
  dsimp only
  split <;> omega

theorem length_part (mark : Char) (k n : Nat) : (part mark k n).length = k + 1 := by
  unfold part
  rw [List.length_cons, length_fixedDigits]

theorem part_inj {mark : Char} {k m n : Nat} (hm : m < 10 ^ k) (hn : n < 10 ^ k)
    (h : part mark k m = part mark k n) : m = n := by
  have hmod := fixedDigits_inj (List.cons.inj h).2
  rw [Nat.mod_eq_of_lt hm, Nat.mod_eq_of_lt hn] at hmod
  exact hmod

theorem part_append_inj {mark : Char} {k m n : Nat} (hm : m < 10 ^ k) (hn : n < 10 ^ k)
    {x y : List Char} (h : part mark k m ++ x = part mark k n ++ y) : m = n ∧ x = y := by
  obtain ⟨hpart, hxy⟩ := List.append_inj h (by rw [length_part, length_part])
  exact ⟨part_inj hm hn hpart, hxy⟩

theorem clock_inj {s t : Nat} (hhour : s / 3600 = t / 3600) (hminute : s / 60 % 60 = t / 60 % 60)
    (hsecond : s % 60 = t % 60) : s = t := by
  omega

theorem length_afterYear (ms : Int) : (afterYear ms).length = 19 := by
  unfold afterYear
  simp only [List.length_append, length_part]

theorem afterYear_inj {ms ms' : Int} (hyear : JsDate.year ms = JsDate.year ms')
    (h : afterYear ms = afterYear ms') : ms = ms' := by
  have hcivil := civil_month_day (ms / 86400000)
  have hcivil' := civil_month_day (ms' / 86400000)
  obtain ⟨s, hs⟩ : ∃ s, s = (ms / 1000 % 86400).toNat := ⟨_, rfl⟩
  obtain ⟨s', hs'⟩ : ∃ s', s' = (ms' / 1000 % 86400).toNat := ⟨_, rfl⟩
  have hlt : s < 86400 := by omega
  have hlt' : s' < 86400 := by omega
  unfold afterYear at h
  dsimp only at h
  rw [← hs, ← hs'] at h
  obtain ⟨hmonth, h⟩ := part_append_inj (by omega) (by omega) h
  obtain ⟨hday, h⟩ := part_append_inj (by omega) (by omega) h
  obtain ⟨hhour, h⟩ := part_append_inj (by omega) (by omega) h
  obtain ⟨hminute, h⟩ := part_append_inj (by omega) (by omega) h
  obtain ⟨hsecond, h⟩ := part_append_inj (by omega) (by omega) h
  have hmillis := part_inj (by omega) (by omega) h
  have hclock : s = s' := clock_inj hhour hminute hsecond
  have hdays : ms / 86400000 = ms' / 86400000 := by
    apply civil_inj
    apply Prod.ext
    · exact hyear
    · apply Prod.ext
      · omega
      · omega
  clear hhour hminute hsecond hmonth hday hcivil hcivil'
  omega

theorem toISOStringMicros_inj {ms ms' : Int} (hms : -JsDate.maxTime ≤ ms ∧ ms ≤ JsDate.maxTime)
    (hms' : -JsDate.maxTime ≤ ms' ∧ ms' ≤ JsDate.maxTime)
    (h : toISOStringMicros ms = toISOStringMicros ms') : ms = ms' := by
  unfold toISOStringMicros at h
  have hiso := List.append_cancel_right h
  obtain ⟨hyear, hafter⟩ := List.append_inj' hiso (by rw [length_afterYear, length_afterYear])
  exact afterYear_inj (yearText_inj (year_bound hms) (year_bound hms') hyear) hafter

/-- No control characters, so no separator. -/
def Printable (t : List Char) : Prop := ∀ c ∈ t, 32 ≤ c.toNat

theorem Printable.append {s t : List Char} (hs : Printable s) (ht : Printable t) :
    Printable (s ++ t) := List.forall_mem_append.2 ⟨hs, ht⟩

theorem Printable.cons {c : Char} {t : List Char} (hc : 32 ≤ c.toNat) (ht : Printable t) :
    Printable (c :: t) := List.forall_mem_cons.2 ⟨hc, ht⟩

theorem printable_fixedDigits (k n : Nat) : Printable (fixedDigits k n) := by
  intro c hc
  have hge := fixedDigits_chars hc
  omega

theorem printable_yearText (y : Int) : Printable (yearText y) := by
  unfold yearText
  split
  · exact printable_fixedDigits _ _
  · refine (printable_fixedDigits _ _).cons ?_
    split <;> decide

theorem printable_part {mark : Char} (hmark : 32 ≤ mark.toNat) (k n : Nat) :
    Printable (part mark k n) := (printable_fixedDigits k n).cons hmark

theorem printable_toISOStringMicros (ms : Int) : Printable (toISOStringMicros ms) := by
  have hday := printable_part (show 32 ≤ '-'.toNat by decide) 2
  have hhour := printable_part (show 32 ≤ 'T'.toNat by decide) 2
  have hclock := printable_part (show 32 ≤ ':'.toNat by decide) 2
  have hmillis := printable_part (show 32 ≤ '.'.toNat by decide) 3
  have hafter : Printable (afterYear ms) := (hday _).append ((hday _).append
    ((hhour _).append ((hclock _).append ((hclock _).append (hmillis _)))))
  have hend : Printable ['0', '0', '0', 'Z'] := by simp [Printable]
  exact ((printable_yearText _).append hafter).append hend

theorem printable_bigintText (n : Int) : Printable (bigintText n) := by
  intro c hc
  have hge := bigintText_chars hc
  omega

theorem sep_notMem_units {t : List Char} (h : Printable t) : sep ∉ units t := by
  intro hmem
  obtain ⟨c, hc, hsep⟩ := List.mem_map.1 hmem
  have hge := h c hc
  have hvalue : sep = 31 := rfl
  omega

end Texts

section Injectivity

variable {N : NumberText ν}

/-- One text is missing and the other is the sentinel itself. -/
def Clash (a b : Option Units) : Prop :=
  (a = none ∧ b = some nullSentinel) ∨ (a = some nullSentinel ∧ b = none)

def Alike (a b : Option Units) : Prop := a = b ∨ Clash a b

/-- The inputs agree on every field, on the nullable texts up to `R`. -/
structure AgreeUpTo (R : Option Units → Option Units → Prop) (f f' : AuditLogInput ν) : Prop where
  tenantId : f.tenantId = f'.tenantId
  ts : f.ts = f'.ts
  actorUserId : f.actorUserId = f'.actorUserId
  actorKind : f.actorKind = f'.actorKind
  action : f.action = f'.action
  entityType : f.entityType = f'.entityType
  entityId : R f.entityId f'.entityId
  beforeJson : Same f.beforeJson f'.beforeJson
  afterJson : Same f.afterJson f'.afterJson
  requestId : R f.requestId f'.requestId
  ipAddress : R f.ipAddress f'.ipAddress
  userAgent : R f.userAgent f'.userAgent

def Agree (f f' : AuditLogInput ν) : Prop := AgreeUpTo Eq f f'

/-- The inputs differ, and only in nullable texts, by null and sentinel. -/
structure DifferInSentinel (f f' : AuditLogInput ν) : Prop where
  rest : AgreeUpTo Alike f f'
  clash : Clash f.entityId f'.entityId ∨ Clash f.requestId f'.requestId ∨
    Clash f.ipAddress f'.ipAddress ∨ Clash f.userAgent f'.userAgent

theorem nullOrStr_eq_iff {a b : Option Units} : nullOrStr a = nullOrStr b ↔ Alike a b := by
  unfold nullOrStr Alike Clash
  cases a <;> cases b <;> simp [eq_comm]

theorem nullOrBigint_eq_iff {a b : Option Int} : nullOrBigint a = nullOrBigint b ↔ a = b := by
  have hne : ∀ n, units (bigintText n) ≠ nullSentinel := by
    intro n h
    have hmem : 92 ∈ units (bigintText n) := by
      rw [h]
      decide
    obtain ⟨c, hc, hval⟩ := List.mem_map.1 hmem
    have hchars := bigintText_chars hc
    omega
  unfold nullOrBigint
  cases a with
  | none =>
    cases b with
    | none => simp
    | some n => simpa using (hne n).symm
  | some m =>
    cases b with
    | none => simpa using hne m
    | some n =>
      simp only [Option.map_some, Option.getD_some, Option.some.injEq]
      exact ⟨fun h => bigintText_inj (units_inj h), fun h => by rw [h]⟩

theorem actorKindText_inj {a b : ActorKind} (h : a.text = b.text) : a = b := by
  cases a <;> cases b <;> first | rfl | (revert h; decide)

theorem kindOf_sentinel : kindOf 92 = none := by decide

theorem serializeValue_ne_sentinel (v : Value ν) : serializeValue N v ≠ nullSentinel := by
  intro h
  obtain ⟨u, t, hv, hu⟩ := serializeValue_starts (N := N) v
  rw [hv] at h
  have hhead : u = 92 := (List.cons.inj h).1
  rw [hhead, kindOf_sentinel] at hu
  cases hu

theorem nullOrJson_eq_iff {v w : Value ν} (hv : UniqueKeys v) (hw : UniqueKeys w) :
    nullOrJson N v = nullOrJson N w ↔ Same v w := by
  rw [← serializeValue_eq_iff (N := N) hv hw]
  have hcases : ∀ v : Value ν, (v = .null ∧ nullOrJson N v = nullSentinel) ∨
      (v ≠ .null ∧ nullOrJson N v = serializeValue N v) := by
    intro v
    cases v with
    | null => exact Or.inl ⟨rfl, rfl⟩
    | _ => exact Or.inr ⟨by simp, rfl⟩
  have hnull : ∀ v : Value ν, v ≠ .null → serializeValue N v ≠ serializeValue N .null := by
    intro v hne h
    have hkind := kind_eq_of_serializeValue_eq h
    cases v with
    | null => exact hne rfl
    | _ => cases hkind
  rcases hcases v with ⟨rfl, htv⟩ | ⟨hvn, htv⟩
  · rcases hcases w with ⟨rfl, htw⟩ | ⟨hwn, htw⟩
    · exact iff_of_true rfl rfl
    · rw [htv, htw]
      exact iff_of_false (serializeValue_ne_sentinel w).symm (hnull w hwn).symm
  · rcases hcases w with ⟨rfl, htw⟩ | ⟨hwn, htw⟩
    · rw [htv, htw]
      exact iff_of_false (serializeValue_ne_sentinel v) (hnull v hvn)
    · rw [htv, htw]

theorem sep_notMem_sentinel : sep ∉ nullSentinel := by decide

theorem sep_notMem_nullOrStr {maxLen : Nat} {a : Option Units} (h : ∀ s ∈ a, SafeStr maxLen s) :
    sep ∉ nullOrStr a := by
  cases a with
  | none => exact sep_notMem_sentinel
  | some s => exact (h s rfl).2.1

theorem sep_notMem_nullOrBigint (a : Option Int) : sep ∉ nullOrBigint a := by
  cases a with
  | none => exact sep_notMem_sentinel
  | some n => exact sep_notMem_units (printable_bigintText n)

theorem sep_notMem_nullOrJson (v : Value ν) : sep ∉ nullOrJson N v := by
  have hvalue : sep ∉ serializeValue N v := by
    intro h
    have hge := serializeValue_printable v sep h
    revert hge
    decide
  cases v with
  | null => exact sep_notMem_sentinel
  | _ => exact hvalue

theorem sep_notMem_actorKind (k : ActorKind) : sep ∉ k.text := by
  cases k <;> decide

theorem sep_notMem_bodyFields {f : AuditLogInput ν} (h : Accepted N f) :
    ∀ t ∈ bodyFields N f, sep ∉ t := by
  intro t ht
  simp only [bodyFields, List.mem_cons, List.not_mem_nil, or_false] at ht
  rcases ht with rfl | rfl | rfl | rfl | rfl | rfl | rfl | rfl | rfl | rfl | rfl
  · exact sep_notMem_units (printable_toISOStringMicros f.ts)
  · exact sep_notMem_nullOrBigint _
  · exact sep_notMem_actorKind _
  · exact h.action.2.1
  · exact h.entityType.2.1
  · exact sep_notMem_nullOrStr h.entityId
  · exact sep_notMem_nullOrJson _
  · exact sep_notMem_nullOrJson _
  · exact sep_notMem_nullOrStr h.requestId
  · exact sep_notMem_nullOrStr h.ipAddress
  · exact sep_notMem_nullOrStr h.userAgent

theorem bodyFields_eq_iff {f f' : AuditLogInput ν} (hf : Accepted N f) (hf' : Accepted N f')
    (htenant : f.tenantId = f'.tenantId) :
    bodyFields N f = bodyFields N f' ↔ AgreeUpTo Alike f f' := by
  have hts : units (toISOStringMicros f.ts) = units (toISOStringMicros f'.ts) ↔ f.ts = f'.ts :=
    ⟨fun h => toISOStringMicros_inj hf.ts hf'.ts (units_inj h), fun h => by rw [h]⟩
  have hkind : f.actorKind.text = f'.actorKind.text ↔ f.actorKind = f'.actorKind :=
    ⟨actorKindText_inj, fun h => by rw [h]⟩
  unfold bodyFields
  simp only [List.cons.injEq, hts, hkind, nullOrBigint_eq_iff, nullOrStr_eq_iff,
    nullOrJson_eq_iff f.beforeKeys f'.beforeKeys, nullOrJson_eq_iff f.afterKeys f'.afterKeys,
    and_true]
  constructor
  · rintro ⟨h1, h2, h3, h4, h5, h6, h7, h8, h9, h10, h11⟩
    exact ⟨htenant, h1, h2, h3, h4, h5, h6, h7, h8, h9, h10, h11⟩
  · rintro ⟨-, h1, h2, h3, h4, h5, h6, h7, h8, h9, h10, h11⟩
    exact ⟨h1, h2, h3, h4, h5, h6, h7, h8, h9, h10, h11⟩

/-- The separator keeps the fields apart: the string determines their texts. -/
theorem canonicalAuditLog_eq_iff {prevHash : Units} {id : Int} {f f' : AuditLogInput ν}
    (hf : Accepted N f) (hf' : Accepted N f') (htenant : f.tenantId = f'.tenantId) :
    canonicalAuditLog N prevHash id f = canonicalAuditLog N prevHash id f' ↔
      AgreeUpTo Alike f f' := by
  rw [← bodyFields_eq_iff hf hf' htenant]
  constructor
  · intro h
    unfold canonicalAuditLog at h
    rw [htenant] at h
    have hstep : ∀ (t : Units) (a b : List Units), a ≠ [] → b ≠ [] →
        join sep (t :: a) = join sep (t :: b) → join sep a = join sep b := by
      intro t a b ha hb hab
      obtain ⟨u, a, rfl⟩ := List.exists_cons_of_ne_nil ha
      obtain ⟨v, b, rfl⟩ := List.exists_cons_of_ne_nil hb
      exact (List.cons.inj (List.append_cancel_left hab)).2
    have h1 := hstep _ _ _ (by simp) (by simp) h
    have h2 := hstep _ _ _ (by simp) (by simp) h1
    have h3 := hstep _ _ _ (by simp) (by simp) h2
    have h4 := hstep _ _ _ (by simp [bodyFields]) (by simp [bodyFields]) h3
    exact join_inj rfl (sep_notMem_bodyFields hf) (sep_notMem_bodyFields hf') h4
  · intro h
    unfold canonicalAuditLog
    rw [htenant, h]

theorem agree_of_no_clash {f f' : AuditLogInput ν}
    (h : AgreeUpTo Alike f f') (hno : ¬DifferInSentinel f f') :
    Agree f f' := by
  have hnone : ∀ hc, False := fun hc => hno ⟨h, hc⟩
  refine ⟨h.tenantId, h.ts, h.actorUserId, h.actorKind, h.action, h.entityType, ?_, h.beforeJson,
    h.afterJson, ?_, ?_, ?_⟩
  · exact h.entityId.resolve_right fun hc => hnone (Or.inl hc)
  · exact h.requestId.resolve_right fun hc => hnone (Or.inr (Or.inl hc))
  · exact h.ipAddress.resolve_right fun hc => hnone (Or.inr (Or.inr (Or.inl hc)))
  · exact h.userAgent.resolve_right fun hc => hnone (Or.inr (Or.inr (Or.inr hc)))

theorem not_agree_of_differInSentinel {f f' : AuditLogInput ν} (h : DifferInSentinel f f') :
    ¬Agree f f' := by
  intro hagree
  have hself : ∀ a b, a = b → ¬Clash a b := by
    rintro a b rfl (⟨h1, h2⟩ | ⟨h1, h2⟩)
    · rw [h1] at h2
      cases h2
    · rw [h2] at h1
      cases h1
  rcases h.clash with hc | hc | hc | hc
  · exact hself _ _ hagree.entityId hc
  · exact hself _ _ hagree.requestId hc
  · exact hself _ _ hagree.ipAddress hc
  · exact hself _ _ hagree.userAgent hc

theorem canonical_injective_iff {prevHash : Units} {id : Int} {f f' : AuditLogInput ν}
    (hf : Accepted N f) (hf' : Accepted N f') (htenant : f.tenantId = f'.tenantId) :
    (canonicalAuditLog N prevHash id f = canonicalAuditLog N prevHash id f' → Agree f f') ↔
      ¬DifferInSentinel f f' := by
  constructor
  · intro hinj hdiffer
    have heq : canonicalAuditLog N prevHash id f = canonicalAuditLog N prevHash id f' :=
      (canonicalAuditLog_eq_iff hf hf' htenant).2 hdiffer.rest
    exact not_agree_of_differInSentinel hdiffer (hinj heq)
  · intro hno heq
    exact agree_of_no_clash ((canonicalAuditLog_eq_iff hf hf' htenant).1 heq) hno

/-- A login without its entity; JSON numbers are the digits here. -/
def digitText : NumberText (Fin 10) where
  text n := [48 + n.val]
  chars := by decide
  ne_nil := by simp
  inj := by decide

def loginInput (entityId : Option Units) : AuditLogInput (Fin 10) where
  tenantId := 1
  actorUserId := some 7
  actorKind := .user
  action := ascii "auth.login"
  entityType := ascii "session"
  entityId := entityId
  beforeJson := .null
  afterJson := .obj [(ascii "b", .arr [.num 1, .bool true]), (ascii "a", .str (ascii "x\ny"))]
  requestId := none
  ipAddress := some (ascii "10.0.0.1")
  userAgent := none
  ts := 1778569200123
  beforeKeys := trivial
  afterKeys := ⟨by decide, ⟨trivial, trivial, trivial⟩, trivial, trivial⟩

theorem loginInput_accepted {entityId : Option Units} (h : ∀ s ∈ entityId, SafeStr 64 s) :
    Accepted digitText (loginInput entityId) := by
  have haction : SafeStr 64 (ascii "auth.login") := ⟨by decide, by decide, by decide⟩
  have htype : SafeStr 32 (ascii "session") := ⟨by decide, by decide, by decide⟩
  have hip : SafeStr 45 (ascii "10.0.0.1") := ⟨by decide, by decide, by decide⟩
  have hts : -JsDate.maxTime ≤ 1778569200123 ∧ 1778569200123 ≤ JsDate.maxTime := by decide
  refine ⟨haction, htype, h, ?_, ?_, ?_, ?_, ?_, hts⟩
  · exact Nat.le_of_ble_eq_true rfl
  · exact Nat.le_of_ble_eq_true rfl
  · simp [loginInput]
  · intro s hs
    rw [← Option.some.inj hs]
    exact hip
  · simp [loginInput]

theorem nullSentinel_safe : SafeStr 64 nullSentinel := ⟨by decide, by decide, by decide⟩

theorem missing_and_empty_kept_apart :
    (canonicalAuditLog digitText (ascii "00") 1 (loginInput none) =
        canonicalAuditLog digitText (ascii "00") 1 (loginInput (some [])) →
      Agree (loginInput none) (loginInput (some []))) ↔
    ¬DifferInSentinel (loginInput none) (loginInput (some [])) :=
  canonical_injective_iff (loginInput_accepted (by simp))
    (loginInput_accepted (by simp [SafeStr])) rfl

theorem missing_and_sentinel_alike :
    Accepted digitText (loginInput none) ∧ Accepted digitText (loginInput (some nullSentinel)) ∧
      canonicalAuditLog digitText (ascii "00") 1 (loginInput none) =
        canonicalAuditLog digitText (ascii "00") 1 (loginInput (some nullSentinel)) ∧
      ¬Agree (loginInput none) (loginInput (some nullSentinel)) := by
  refine ⟨loginInput_accepted (by simp), loginInput_accepted ?_, rfl, ?_⟩
  · intro s hs
    rw [← Option.some.inj hs]
    exact nullSentinel_safe
  · intro h
    cases h.entityId

end Injectivity

end AuditInput

end Vici2
