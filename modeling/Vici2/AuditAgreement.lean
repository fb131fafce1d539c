import Vici2.AuditCanonical
import Vici2.Delimited

/-! When the three builders of the canonical `audit_log` string agree. The
statement has to state the id of the row, which the trigger reads before the
counter has given one. The timestamp has to be a whole number of milliseconds,
and the JSON columns have to be free of everything the runtimes write
differently: spaces between members, characters escaped by one of them only, and
a JSON null. -/

namespace Vici2

namespace Audit

open Json IsoTime

section Escapes

variable {S T : List Char}

theorem escapeChar_eq_or_head (hST : S ⊆ T) (c : Char) :
    escapeChar S c = escapeChar T c ∨
      (c ∈ T ∧ c ≠ '\\' ∧ escapeChar S c = [c] ∧ ∃ t, escapeChar T c = '\\' :: t) := by
  unfold escapeChar
  cases he : shortEscape c with
  | some e => exact Or.inl rfl
  | none =>
    dsimp only
    by_cases hS : c.toNat < 32 ∨ c ∈ S
    · have hT : c.toNat < 32 ∨ c ∈ T := hS.imp id fun h => hST h
      rw [if_pos hS, if_pos hT]
      exact Or.inl rfl
    · by_cases hT : c.toNat < 32 ∨ c ∈ T
      · rw [if_neg hS, if_pos hT]
        have hcT : c ∈ T := by
          rcases hT with h | h
          · exact absurd (Or.inl h) hS
          · exact h
        exact Or.inr ⟨hcT, (shortEscape_quote he).2, rfl, _, rfl⟩
      · rw [if_neg hS, if_neg hT]
        exact Or.inl rfl

theorem flatMap_escapeChar_eq_iff (hST : S ⊆ T) (s : List Char) :
    s.flatMap (escapeChar S) = s.flatMap (escapeChar T) ↔
      ∀ c ∈ s, escapeChar S c = escapeChar T c := by
  induction s with
  | nil => simp
  | cons c s ih =>
    rw [List.flatMap_cons, List.flatMap_cons, List.forall_mem_cons, ← ih]
    rcases escapeChar_eq_or_head hST c with heq | ⟨-, hne, hS, t, hT⟩
    · rw [heq, List.append_cancel_left_eq]
      simp
    · rw [hS, hT]
      simp [hne]

end Escapes

/-- The characters that one of the three runtimes escapes and another does not. -/
def specialChars : List Char := ['<', '>', '&', '\u2028', '\u2029']

theorem escapeChar_special_iff (c : Char) :
    escapeChar [] c = escapeChar specialChars c ↔ c ∉ specialChars := by
  constructor
  · intro h hc
    have hne : ∀ d ∈ specialChars, escapeChar [] d ≠ escapeChar specialChars d :=
      List.all_iff_forall_prop.1 (by decide)
    exact hne c hc h
  · intro hc
    rcases escapeChar_eq_or_head (List.nil_subset specialChars) c with h | ⟨h, -⟩
    · exact h
    · exact absurd h hc

variable {ν : Type*} (F : NumberTexts ν)

/-- No object member, no array of two members, only numbers that the three
runtimes write alike and no special character. -/
def Flat : Json ν → Prop
  | .null => True
  | .bool _ => True
  | .num x => F.js x = F.go x ∧ F.go x = F.mysql x
  | .str s => ∀ c ∈ s.toList, c ∉ specialChars
  | .arr [] => True
  | .arr [v] => Flat v
  | .arr (_ :: _ :: _) => False
  | .obj l => l = []

theorem literal_goStyle_eq_iff (s : String) :
    literal (goStyle F) s = literal (mysqlStyle F) s ↔ ∀ c ∈ s.toList, c ∉ specialChars := by
  have hcore := flatMap_escapeChar_eq_iff (List.nil_subset specialChars) s.toList
  have hchars : (∀ c ∈ s.toList, escapeChar [] c = escapeChar specialChars c) ↔
      ∀ c ∈ s.toList, c ∉ specialChars :=
    forall₂_congr fun c _ => escapeChar_special_iff c
  unfold literal
  rw [List.cons.injEq, List.append_cancel_right_eq, ← hchars, ← hcore]
  exact ⟨fun h => h.2.symm, fun h => ⟨rfl, h.symm⟩⟩

theorem literal_jcsStyle_eq {s : String} (h : ∀ c ∈ s.toList, c ∉ specialChars) :
    literal (jcsStyle F) s = literal (goStyle F) s := by
  have hsub : ['\u2028', '\u2029'] ⊆ specialChars := by decide
  have hcore : s.toList.flatMap (escapeChar ['\u2028', '\u2029']) =
      s.toList.flatMap (escapeChar specialChars) := by
    rw [flatMap_escapeChar_eq_iff hsub]
    intro c hc
    rcases escapeChar_eq_or_head hsub c with heq | ⟨hmem, -⟩
    · exact heq
    · exact absurd hmem (h c hc)
  unfold literal
  show '"' :: (s.toList.flatMap (escapeChar ['\u2028', '\u2029']) ++ ['"']) = _
  rw [hcore]
  rfl

theorem jcs_ne_jsonExtract {v : Json ν} (h : scan .outside (jsonExtract F v) = none) :
    jcs F v ≠ jsonExtract F v := by
  intro heq
  have hcompact : scan .outside (jcs F v) = some .outside :=
    scan_render_compact (jcsStyle F) rfl rfl v
  rw [heq, h] at hcompact
  cases hcompact

theorem render_singleton (R : Style ν) (v : Json ν) :
    render R (.arr [v]) = '[' :: (render R v ++ [']']) := by
  simp [render, renderList, joinWith]

theorem flat_iff : ∀ v : Json ν,
    (jcs F v = marshalJCS F v ∧ marshalJCS F v = jsonExtract F v) ↔ Flat F v
  | .null => by simp [jcs, marshalJCS, jsonExtract, render, Flat]
  | .bool true => by simp [jcs, marshalJCS, jsonExtract, render, Flat]
  | .bool false => by simp [jcs, marshalJCS, jsonExtract, render, Flat]
  | .num x => by
    unfold Flat jcs marshalJCS jsonExtract render
    exact Iff.rfl
  | .str s => by
    have hiff := literal_goStyle_eq_iff F s
    unfold Flat jcs marshalJCS jsonExtract render
    constructor
    · rintro ⟨-, h⟩
      exact hiff.1 h
    · intro h
      exact ⟨literal_jcsStyle_eq F h, hiff.2 h⟩
  | .arr [] => by simp [jcs, marshalJCS, jsonExtract, render, renderList, joinWith, Flat]
  | .arr [v] => by
    have ih := flat_iff v
    unfold Flat
    rw [← ih]
    unfold jcs marshalJCS jsonExtract
    simp only [render_singleton, List.cons.injEq, true_and, List.append_cancel_right_eq]
  | .arr (v :: w :: l) => by
    have hscan : scan .outside (jsonExtract F (.arr (v :: w :: l))) = none :=
      scan_render_arr_spaced rfl rfl v w l
    unfold Flat
    constructor
    · rintro ⟨h1, h2⟩
      exact jcs_ne_jsonExtract F hscan (h1.trans h2)
    · exact False.elim
  | .obj [] => by
    simp [jcs, marshalJCS, jsonExtract, render, renderPairs, sortKeys, joinWith, Flat]
  | .obj (p :: l) => by
    have hscan : scan .outside (jsonExtract F (.obj (p :: l))) = none :=
      scan_render_obj_spaced rfl p l
    unfold Flat
    constructor
    · rintro ⟨h1, h2⟩
      exact absurd (h1.trans h2) (jcs_ne_jsonExtract F hscan)
    · intro h
      cases h

theorem digitChar_ne_sep {n : Nat} (h : n < 16) : Nat.digitChar n ≠ sep := by
  interval_cases n <;> decide

theorem sep_not_mem_escapeChar {special : List Char} (hspecial : sep ∉ special) (c : Char) :
    ∀ d ∈ escapeChar special c, d ≠ sep := by
  have hshort : ∀ e, shortEscape c = some e → e ∈ ['"', '\\', 'b', 'f', 'n', 'r', 't'] := by
    intro e he
    unfold shortEscape at he
    split at he <;> simp_all [eq_comm]
  have hnames : ∀ e ∈ ['"', '\\', 'b', 'f', 'n', 'r', 't'], e ≠ sep :=
    List.all_iff_forall_prop.1 (by decide)
  intro d hd
  unfold escapeChar at hd
  cases he : shortEscape c with
  | some e =>
    rw [he] at hd
    simp only [List.mem_cons, List.not_mem_nil, or_false] at hd
    rcases hd with rfl | rfl
    · decide
    · exact hnames _ (hshort _ he)
  | none =>
    rw [he] at hd
    dsimp only at hd
    split at hd
    · simp only [unicodeEscape, List.mem_cons, List.not_mem_nil, or_false] at hd
      rcases hd with rfl | rfl | rfl | rfl | rfl | rfl
      · decide
      · decide
      · exact digitChar_ne_sep (by omega)
      · exact digitChar_ne_sep (by omega)
      · exact digitChar_ne_sep (by omega)
      · exact digitChar_ne_sep (by omega)
    · rw [List.mem_singleton] at hd
      subst hd
      rintro rfl
      have hlow : sep.toNat < 32 := by decide
      simp_all

theorem writes_style {R : Style ν} (special : List Char) (hspecial : sep ∉ special)
    (hesc : R.escape = escapeChar special)
    (hnum : ∀ x, ∀ c ∈ R.number x, c ∈ "0123456789+-.eE".toList)
    (hcomma : sep ∉ R.comma) (hcolon : sep ∉ R.colon) : Writes R fun c => c ≠ sep := by
  have hdigits : ∀ c ∈ "0123456789+-.eE".toList, c ≠ sep :=
    List.all_iff_forall_prop.1 (by decide)
  refine ⟨List.all_iff_forall_prop.1 (by decide), ?_, fun x c hc => hdigits c (hnum x c hc), ?_, ?_⟩
  · rw [hesc]
    exact sep_not_mem_escapeChar hspecial
  · rintro c hc rfl
    exact hcomma hc
  · rintro c hc rfl
    exact hcolon hc

theorem sep_not_mem_marshalJCS (v : Json ν) : ∀ c ∈ marshalJCS F v, c ≠ sep :=
  forall_mem_render (writes_style _ (by decide) rfl
    (fun x c hc => F.chars x c (by simp [show c ∈ F.go x from hc]))
    (by simp [goStyle, sep]) (by simp [goStyle, sep])) v

theorem sep_not_mem_jcs (v : Json ν) : ∀ c ∈ jcs F v, c ≠ sep :=
  forall_mem_render (writes_style _ (by decide) rfl
    (fun x c hc => F.chars x c (by simp [show c ∈ F.js x from hc]))
    (by simp [jcsStyle, sep]) (by simp [jcsStyle, sep])) v

theorem sep_not_mem_jsonExtract (v : Json ν) : ∀ c ∈ jsonExtract F v, c ≠ sep :=
  forall_mem_render (writes_style _ (by decide) rfl
    (fun x c hc => F.chars x c (by simp [show c ∈ F.mysql x from hc]))
    (by simp [mysqlStyle, sep]) (by simp [mysqlStyle, sep])) v

theorem sep_not_mem_nullSentinel : ∀ c ∈ nullSentinel, c ≠ sep :=
  List.all_iff_forall_prop.1 (by decide)

theorem sep_not_mem_nullOrJson (v : Option (Json ν)) : ∀ c ∈ nullOrJson F v, c ≠ sep := by
  unfold nullOrJson
  split
  · exact sep_not_mem_nullSentinel
  · exact sep_not_mem_nullSentinel
  · exact sep_not_mem_jcs F _

theorem sep_not_mem_jcsJSON (v : Option (Json ν)) : ∀ c ∈ jcsJSON F v, c ≠ sep := by
  unfold jcsJSON
  split
  · exact sep_not_mem_nullSentinel
  · exact sep_not_mem_nullSentinel
  · exact sep_not_mem_marshalJCS F _

theorem sep_not_mem_triggerJson (v : Option (Json ν)) :
    ∀ c ∈ nullOr (jsonExtract F) v, c ≠ sep := by
  cases v with
  | none => exact sep_not_mem_nullSentinel
  | some v => exact sep_not_mem_jsonExtract F v

theorem append_sep_inj {a b x y : List Char} (ha : ∀ c ∈ a, c ≠ sep) (hb : ∀ c ∈ b, c ≠ sep)
    (h : a ++ sep :: x = b ++ sep :: y) : a = b ∧ x = y :=
  Delimited.append_sep_inj (fun hm => ha sep hm rfl) (fun hm => hb sep hm rfl) h

theorem lpad20_ne_sep (n : Nat) : ∀ c ∈ lpad20 n, c ≠ sep := by
  intro c hc h
  have hdigit := Delimited.isDigit_of_mem_padded hc
  rw [h] at hdigit
  exact absurd hdigit (by decide)

theorem lpad20_inj {m n : Nat} (h : lpad20 m = lpad20 n) : m = n := Delimited.padded_inj h

theorem joinWith_sep_cons (a b : List Char) (l : List (List Char)) :
    joinWith [sep] (a :: b :: l) = a ++ sep :: joinWith [sep] (b :: l) := by
  simp [joinWith]

theorem joinSep_inj {l l' : List (List Char)} :
    joinSep l = joinSep l' ↔ joinWith [sep] l = joinWith [sep] l' := by
  unfold joinSep
  constructor
  · intro h
    have hlist := congrArg String.toList h
    simpa using hlist
  · intro h
    rw [h]

theorem audit_log_text_eq_iff {prevHash : String} {tenantId id id' : Nat} {r : AuditLogBody ν}
    {t t' b b' a a' : List Char} (ht : t.length = t'.length)
    (hb : ∀ c ∈ b, c ≠ sep) (hb' : ∀ c ∈ b', c ≠ sep) (ha : ∀ c ∈ a, c ≠ sep)
    (ha' : ∀ c ∈ a', c ≠ sep) :
    joinSep (chainFields prevHash tenantId "audit_log" id [t, nullOr natText r.actorUserId,
        r.actorKind.toList, r.action.toList, r.entityType.toList, nullOrStr r.entityId, b, a,
        nullOrStr r.requestId, nullOrStr r.ipAddress, nullOrStr r.userAgent]) =
      joinSep (chainFields prevHash tenantId "audit_log" id' [t', nullOr natText r.actorUserId,
        r.actorKind.toList, r.action.toList, r.entityType.toList, nullOrStr r.entityId, b', a',
        nullOrStr r.requestId, nullOrStr r.ipAddress, nullOrStr r.userAgent]) ↔
      id = id' ∧ t = t' ∧ b = b' ∧ a = a' := by
  rw [joinSep_inj]
  unfold chainFields
  simp only [joinWith_sep_cons, List.append_cancel_left_eq, List.cons.injEq, true_and]
  constructor
  · intro h
    obtain ⟨hid, h⟩ := append_sep_inj (lpad20_ne_sep id) (lpad20_ne_sep id') h
    obtain ⟨htt, hrest⟩ := List.append_inj h ht
    simp only [List.cons.injEq, true_and, List.append_cancel_left_eq] at hrest
    obtain ⟨hbb, hrest⟩ := append_sep_inj hb hb' hrest
    obtain ⟨haa, -⟩ := append_sep_inj ha ha' hrest
    exact ⟨lpad20_inj hid, htt, hbb, haa⟩
  · rintro ⟨rfl, rfl, rfl, rfl⟩
    rfl

theorem length_jsDate (us : Int) : (jsDate us).length = (isoMicros us).length := by
  have hsec : us / 1000 / 1000 = us / 1000000 := by omega
  unfold jsDate toISOStringMicros toJsDate isoMicros millisText microsText
  rw [hsec]
  simp [fixedDigits]

theorem jsDate_eq_isoMicros {us : Int} : jsDate us = isoMicros us ↔ us % 1000 = 0 := by
  rw [← millisText_eq_microsText]
  have hsplit : jsDate us = (millisText (us / 1000) ++ ['0', '0', '0']) ++ ['Z'] := by
    simp [jsDate, toISOStringMicros, toJsDate]
  rw [hsplit]
  unfold isoMicros
  rw [List.append_cancel_right_eq]

def JsonAgrees : Option (Json ν) → Prop
  | none => True
  | some .null => False
  | some v => Flat F v

theorem jsonAgrees_iff (v : Option (Json ν)) :
    (nullOrJson F v = jcsJSON F v ∧ jcsJSON F v = nullOr (jsonExtract F) v) ↔ JsonAgrees F v := by
  match v with
  | none => simp [nullOrJson, jcsJSON, nullOr, JsonAgrees]
  | some .null =>
    simp [nullOrJson, jcsJSON, nullOr, jsonExtract, render, nullSentinel, JsonAgrees]
  | some (.bool b) => exact flat_iff F (.bool b)
  | some (.num x) => exact flat_iff F (.num x)
  | some (.str s) => exact flat_iff F (.str s)
  | some (.arr l) => exact flat_iff F (.arr l)
  | some (.obj l) => exact flat_iff F (.obj l)

/-- The strings that the API verifier and the dialer's build from a row, and the string that
the insert trigger has built for it, are the same. -/
def CanonicalAgree (prevHash : String) (tenantId newId id : Nat) (r : AuditLogBody ν) : Prop :=
  canonicalAuditLog F prevHash tenantId id r = canonicalize F prevHash tenantId id r ∧
    canonicalize F prevHash tenantId id r = triggerCanonical F prevHash tenantId newId r

theorem canonicalAgree_iff_fields {prevHash : String} {tenantId newId id : Nat}
    {r : AuditLogBody ν} :
    CanonicalAgree F prevHash tenantId newId id r ↔
      id = newId ∧ jsDate r.ts = isoMicros r.ts ∧
        (nullOrJson F r.beforeJson = jcsJSON F r.beforeJson ∧
          jcsJSON F r.beforeJson = nullOr (jsonExtract F) r.beforeJson) ∧
        nullOrJson F r.afterJson = jcsJSON F r.afterJson ∧
          jcsJSON F r.afterJson = nullOr (jsonExtract F) r.afterJson := by
  have hts : canonicalAuditLog F prevHash tenantId id r = canonicalize F prevHash tenantId id r ↔
      id = id ∧ jsDate r.ts = isoMicros r.ts ∧
        nullOrJson F r.beforeJson = jcsJSON F r.beforeJson ∧
        nullOrJson F r.afterJson = jcsJSON F r.afterJson :=
    audit_log_text_eq_iff (length_jsDate r.ts) (sep_not_mem_nullOrJson F _)
      (sep_not_mem_jcsJSON F _) (sep_not_mem_nullOrJson F _) (sep_not_mem_jcsJSON F _)
  have hdb : canonicalize F prevHash tenantId id r =
        triggerCanonical F prevHash tenantId newId r ↔
      id = newId ∧ isoMicros r.ts = isoMicros r.ts ∧
        jcsJSON F r.beforeJson = nullOr (jsonExtract F) r.beforeJson ∧
        jcsJSON F r.afterJson = nullOr (jsonExtract F) r.afterJson :=
    audit_log_text_eq_iff rfl (sep_not_mem_jcsJSON F _) (sep_not_mem_triggerJson F _)
      (sep_not_mem_jcsJSON F _) (sep_not_mem_triggerJson F _)
  unfold CanonicalAgree
  rw [hts, hdb]
  constructor
  · rintro ⟨⟨-, h, hb, ha⟩, hid, -, hb', ha'⟩
    exact ⟨hid, h, ⟨hb, hb'⟩, ha, ha'⟩
  · rintro ⟨hid, h, ⟨hb, hb'⟩, ha, ha'⟩
    exact ⟨⟨rfl, h, hb, ha⟩, hid, rfl, hb', ha'⟩

theorem writtenId_eq_triggerId {stated : Option Nat} {next : ℕ+} :
    writtenId stated next = triggerId stated ↔ triggerId stated ≠ 0 := by
  unfold writtenId
  by_cases h : triggerId stated = 0
  · rw [if_pos h, h]
    simp
  · rw [if_neg h]
    exact iff_of_true rfl h

/-- For a row that some statement inserts, whatever it states as the id and the counter
gives. -/
theorem canonical_forms_agree_iff (prevHash : String) (tenantId : Nat) (stated : Option Nat)
    (next : ℕ+) (r : AuditLogBody ν) :
    CanonicalAgree F prevHash tenantId (triggerId stated) (writtenId stated next) r ↔
      triggerId stated ≠ 0 ∧ r.ts % 1000 = 0 ∧ JsonAgrees F r.beforeJson ∧
        JsonAgrees F r.afterJson := by
  rw [canonicalAgree_iff_fields, writtenId_eq_triggerId, jsDate_eq_isoMicros, jsonAgrees_iff,
    jsonAgrees_iff]

/-- Integers in the range where all three runtimes write them digit by digit. -/
def smallNumbers : NumberTexts (Fin 10) where
  js x := [Nat.digitChar x]
  go x := [Nat.digitChar x]
  mysql x := [Nat.digitChar x]
  chars x := List.all_iff_forall_prop.1 (by revert x; decide)

/-- A row with one member in its JSON column, at a whole millisecond. -/
def loginRow : AuditLogBody (Fin 10) :=
  ⟨1778569200123000, some 7, "user", "auth.login", "session", none, none,
    some (.obj [("ok", .bool true)]), none, some "10.0.0.1", none⟩

/-- A login as the writers insert it, and without its JSON column; the same with its id
stated. -/
theorem login_row_hashed_differently :
    ¬ CanonicalAgree smallNumbers
        "0000000000000000000000000000000000000000000000000000000000000000" 1
        (triggerId none) (writtenId none 1) { loginRow with afterJson := none } ∧
      ¬ CanonicalAgree smallNumbers
        "0000000000000000000000000000000000000000000000000000000000000000" 1
        (triggerId (some 1)) (writtenId (some 1) 1) loginRow := by
  rw [canonicalAgree_iff_fields, canonicalAgree_iff_fields]
  constructor
  · rintro ⟨hid, -⟩
    exact absurd hid (by decide)
  · rintro ⟨-, -, -, hgo, hdb⟩
    have hscan : scan .outside (jsonExtract smallNumbers (.obj [("ok", .bool true)])) = none :=
      scan_render_obj_spaced rfl _ _
    exact jcs_ne_jsonExtract smallNumbers hscan (hgo.trans hdb)

end Audit

end Vici2
