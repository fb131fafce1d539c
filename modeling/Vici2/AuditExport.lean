import Vici2.AuditTrigger
import Vici2.Base64
import Vici2.Csv
import Vici2.KeysetPaging
import Vici2.RbacCache

/-! Reading the audit log page by page. Each page asked for is itself written into the log
that is read, and so are the rows of others between two pages. -/

namespace Vici2

namespace Audit

structure RbacContext where
  userId : Nat
  tenantId : Nat
  permissions : List String
  requestId : Option String
  ipAddress : Option String
  userAgent : Option String

/-- Dates are days since 1970-01-01. -/
structure AuditListRequest where
  tenantId : Nat
  fromDate : Option Int
  toDate : Option Int
  cursor : Option String
  limit : Option Nat

structure Paginated (ν : Type) where
  items : List (AuditRow ν .auditLog)
  nextCursor : Option String

inductive ListError
  | forbidden (perm : String)
  | invalidEntry
  | invalidCursor
  deriving DecidableEq, Repr

def cursorText (id : Nat) : String :=
  Base64.encode ((Nat.toDigits 10 id).map fun c => UInt8.ofNat c.toNat)

/-- `none` is a text that is no decimal number; the other texts that `BigInt` takes are written
by no answer. -/
def readCursor (cursor : String) : Option Int :=
  Rbac.bigInt ((Base64.decode cursor).map fun b => Char.ofNat b.toNat)

def safeStr (maxLen : Nat) (s : Option String) : Bool :=
  s.all fun s => decide ((utf16 s).length ≤ maxLen) && !s.toList.contains sep &&
    !s.toList.contains '\x00'

/-- What the schema of the writer asks of the entry that a read is recorded by. -/
def RbacContext.accepted (rbac : RbacContext) : Bool :=
  safeStr 64 rbac.requestId && safeStr 45 rbac.ipAddress && safeStr 255 rbac.userAgent

variable {ν : Type} (F : NumberTexts ν) (H : Digest)

def metaAudit (rbac : RbacContext) (action entityType : String) (isCrossTenant : Bool)
    (now : Int) (skipped : Nat) : NewRow ν where
  tenantId := rbac.tenantId
  skipped := skipped
  statesId := false
  body :=
    { ts := now
      actorUserId := some rbac.userId
      actorKind := "user"
      action := if isCrossTenant then "audit.access.cross_tenant" else action
      entityType := entityType
      entityId := none
      beforeJson := none
      afterJson := if isCrossTenant then
        some (.obj [("severity", .str "SEV1"), ("originalAction", .str action)]) else none
      requestId := rbac.requestId
      ipAddress := rbac.ipAddress
      userAgent := rbac.userAgent }

def within (tenantId : Nat) (fromDate toDate : Option Int) (r : AuditRow ν .auditLog) : Bool :=
  decide (r.tenantId = tenantId) && fromDate.all (fun d => decide (d * dayMicros ≤ r.hashAt)) &&
    toDate.all fun d => decide (r.hashAt ≤ d * dayMicros + (dayMicros - 1))

/-- A list of `audit_log`. The read is recorded before the cursor is looked at. -/
def list (rbac : RbacContext) (req : AuditListRequest) (now : Int) (skipped : Nat)
    (s : AuditLog ν) : AuditLog ν × Except ListError (Paginated ν) :=
  if !rbac.permissions.contains "audit:view" then (s, .error (.forbidden "audit:view"))
  else if !rbac.accepted then (s, .error .invalidEntry)
  else
    let s' := insertRow F H s (metaAudit rbac "audit.access.audit_log_listed" "audit_log"
      (decide (req.tenantId ≠ rbac.tenantId)) now skipped)
    let limit := min (req.limit.getD 50) 200
    let cursorId : Option (Option Int) :=
      match req.cursor with
      | none => some none
      | some c => if c = "" then some none else (readCursor c).map some
    match cursorId with
    | none => (s', .error .invalidCursor)
    | some cursorId =>
      let rows := (s'.rows.filter fun r => within req.tenantId req.fromDate req.toDate r &&
        cursorId.all fun c => c == 0 || decide (c < (r.id : Int))).take (limit + 1)
      let hasMore := decide (limit < rows.length)
      let items := if hasMore then rows.take limit else rows
      (s', .ok ⟨items, if hasMore then items.getLast?.map fun r => cursorText r.id else none⟩)

structure ExportQuery where
  fromDate : Option Int
  toDate : Option Int

/-- What happens up to a page: the inserts of others, and when the page is asked for. -/
structure Moment (ν : Type) where
  arrivals : List (NewRow ν)
  now : Int
  skipped : Nat

structure Exported (ν : Type) where
  rows : List (AuditRow ν .auditLog)
  log : AuditLog ν
  done : Bool

def exportRequest (rbac : RbacContext) (q : ExportQuery) (cursor : Option String) :
    AuditListRequest :=
  ⟨rbac.tenantId, q.fromDate, q.toDate, cursor, some 200⟩

/-- The loop of `exportAuditLog`, behind its own check of `audit:export`. -/
def exportRows (rbac : RbacContext) (q : ExportQuery) :
    Option String → List (Moment ν) → AuditLog ν → Exported ν
  | _, [], s => ⟨[], s, false⟩
  | cursor, m :: moments, s =>
    match list F H rbac (exportRequest rbac q cursor) m.now m.skipped
      (m.arrivals.foldl (insertRow F H) s) with
    | (s', .error _) => ⟨[], s', false⟩
    | (s', .ok page) =>
      match page.nextCursor with
      | none => ⟨page.items, s', true⟩
      | some cursor =>
        let rest := exportRows rbac q (some cursor) moments s'
        ⟨page.items ++ rest.rows, rest.log, rest.done⟩

section Export

theorem readCursor_cursorText (id : Nat) : readCursor (cursorText id) = some (id : Int) := by
  unfold readCursor cursorText
  rw [Base64.decode_encode, List.map_map]
  have hdigits : ∀ c ∈ Nat.toDigits 10 id, Char.ofNat (UInt8.ofNat c.toNat).toNat = c := by
    intro c hc
    have hdigit := Nat.isDigit_of_mem_toDigits (by decide) (by decide) hc
    have h9 : c.toNat ≤ 57 := (Char.isDigit_iff_toNat.1 hdigit).2
    have hsmall : (UInt8.ofNat c.toNat).toNat = c.toNat := by
      rw [UInt8.toNat_ofNat']
      omega
    rw [hsmall, Char.ofNat_toNat]
  have hmap : (Nat.toDigits 10 id).map ((fun b : UInt8 => Char.ofNat b.toNat) ∘
      fun c => UInt8.ofNat c.toNat) = Nat.toDigits 10 id := by
    conv_rhs => rw [← List.map_id (Nat.toDigits 10 id)]
    exact List.map_congr_left hdigits
  have hid := Rbac.bigInt_intText (id : Int)
  rw [Rbac.toList_intText, if_neg (by omega), Int.natAbs_natCast] at hid
  rw [hmap, hid]

/-- The primary key of the table: ids are positive and each is taken once. -/
structure PrimaryKey (s : AuditLog ν) : Prop where
  unique : s.rows.Pairwise fun a b => a.id < b.id
  positive : ∀ r ∈ s.rows, 0 < r.id
  next_pos : 0 < s.nextId

variable {s : AuditLog ν}

theorem PrimaryKey.insertRow (h : PrimaryKey s) (a : NewRow ν) : PrimaryKey (insertRow F H s a) where
  unique := by
    show (s.rows ++ [newRow F H s a]).Pairwise fun a b => a.id < b.id
    rw [List.pairwise_append]
    refine ⟨h.unique, List.pairwise_singleton _ _, ?_⟩
    intro r hr q hq
    rw [List.mem_singleton.1 hq]
    exact Nat.lt_of_lt_of_le (s.below r hr) (Nat.le_add_right _ _)
  positive := by
    intro r hr
    rcases List.mem_append.1 hr with hr | hr
    · exact h.positive r hr
    · rw [List.mem_singleton.1 hr]
      exact Nat.lt_of_lt_of_le h.next_pos (Nat.le_add_right _ _)
  next_pos := Nat.succ_pos _

theorem PrimaryKey.insertRows (h : PrimaryKey s) (l : List (NewRow ν)) :
    PrimaryKey (l.foldl (Audit.insertRow F H) s) := by
  induction l generalizing s with
  | nil => exact h
  | cons a l ih => exact ih (h.insertRow F H a)

theorem prefix_insertRow (s : AuditLog ν) (a : NewRow ν) : s.rows <+: (insertRow F H s a).rows :=
  List.prefix_append _ _

theorem prefix_insertRows (s : AuditLog ν) (l : List (NewRow ν)) :
    s.rows <+: (l.foldl (insertRow F H) s).rows := by
  induction l generalizing s with
  | nil => exact List.prefix_refl _
  | cons a l ih => exact (prefix_insertRow F H s a).trans (ih _)

def logAt (rbac : RbacContext) (m : Moment ν) (s : AuditLog ν) : AuditLog ν :=
  insertRow F H (m.arrivals.foldl (insertRow F H) s)
    (metaAudit rbac "audit.access.audit_log_listed" "audit_log" false m.now m.skipped)

def logsAt (rbac : RbacContext) : List (Moment ν) → AuditLog ν → List (AuditLog ν)
  | [], _ => []
  | m :: moments, s => logAt F H rbac m s :: logsAt rbac moments (logAt F H rbac m s)

def selected (rbac : RbacContext) (q : ExportQuery) (s : AuditLog ν) : List (AuditRow ν .auditLog) :=
  s.rows.filter (within rbac.tenantId q.fromDate q.toDate)

def idKeyset (ν : Type) : Keyset (AuditRow ν .auditLog) Nat Nat where
  ord r := r.id
  cursor r := r.id
  after c r := decide (c < r.id)
  after_of_lt := by
    intro c x y hlt h
    rw [decide_eq_true_eq] at h ⊢
    exact Nat.lt_trans h hlt
  lt_of_after := by
    intro x y h
    exact of_decide_eq_true h

/-- The caller may read the log, and the read can be recorded. -/
structure MayExport (rbac : RbacContext) : Prop where
  view : rbac.permissions.contains "audit:view" = true
  accepted : rbac.accepted = true

variable {rbac : RbacContext} {q : ExportQuery}

theorem cursorText_ne_empty {id : Nat} (h : 0 < id) : cursorText id ≠ "" := by
  intro hempty
  have hread := readCursor_cursorText id
  have hnone : readCursor "" = some 0 := by decide
  rw [hempty, hnone, Option.some.injEq] at hread
  omega

theorem list_eq_page (hmay : MayExport rbac) {c : Option Nat} (hc : ∀ id, c = some id → 0 < id)
    (m : Moment ν) (s : AuditLog ν) :
    list F H rbac (exportRequest rbac q (c.map cursorText)) m.now m.skipped
        (m.arrivals.foldl (insertRow F H) s) =
      (logAt F H rbac m s, .ok
        ⟨((idKeyset ν).page 200 c (selected rbac q (logAt F H rbac m s))).1,
          ((idKeyset ν).page 200 c (selected rbac q (logAt F H rbac m s))).2.map fun r =>
            cursorText r.id⟩) := by
  have hrows : ((logAt F H rbac m s).rows.filter fun r =>
      within rbac.tenantId q.fromDate q.toDate r &&
        (c.map fun id : Nat => (id : Int)).all fun c => c == 0 || decide (c < (r.id : Int))) =
      (idKeyset ν).fetch c (selected rbac q (logAt F H rbac m s)) := by
    cases c with
    | none => simp [selected, Keyset.fetch]
    | some id =>
      have hid : ((id : Int) == 0) = false := by
        have hpos := hc id rfl
        rw [beq_eq_false_iff_ne]
        omega
      unfold selected Keyset.fetch
      dsimp only
      rw [List.filter_filter]
      congr 1
      funext r
      simp [idKeyset, hid, Bool.and_comm]
  have hcursor : (match c.map cursorText with
      | none => some none
      | some c => if c = "" then some none else (readCursor c).map some) =
      some (c.map fun id : Nat => (id : Int)) := by
    cases c with
    | none => rfl
    | some id =>
      dsimp only [Option.map_some]
      rw [if_neg (cursorText_ne_empty (hc id rfl)), readCursor_cursorText]
      rfl
  have hsame : decide (rbac.tenantId ≠ rbac.tenantId) = false := by simp
  have hlimit : min ((some 200).getD 50) 200 = 200 := rfl
  have hlog : insertRow F H (m.arrivals.foldl (insertRow F H) s) (metaAudit rbac
      "audit.access.audit_log_listed" "audit_log" false m.now m.skipped) = logAt F H rbac m s := rfl
  unfold list exportRequest Keyset.page
  simp only [hmay.view, hmay.accepted, hcursor, hsame, hlimit, hlog, hrows, Bool.not_true,
    Bool.false_eq_true, if_false]
  generalize ((idKeyset ν).fetch c (selected rbac q (logAt F H rbac m s))).take (200 + 1) = fetched
  by_cases hmore : 200 < fetched.length
  · simp only [hmore, decide_true, if_true]
  · simp only [hmore, decide_false, Bool.false_eq_true, if_false, Option.map_none]

theorem PrimaryKey.logAt (h : PrimaryKey s) (m : Moment ν) : PrimaryKey (logAt F H rbac m s) :=
  (h.insertRows F H m.arrivals).insertRow F H _

theorem prefix_logAt (m : Moment ν) (s : AuditLog ν) : s.rows <+: (logAt F H rbac m s).rows :=
  (prefix_insertRows F H s m.arrivals).trans (prefix_insertRow F H _ _)

theorem PrimaryKey.logsAt (h : PrimaryKey s) (moments : List (Moment ν)) :
    ∀ t ∈ logsAt F H rbac moments s, PrimaryKey t := by
  induction moments generalizing s with
  | nil => simp [Audit.logsAt]
  | cons m moments ih =>
    intro t ht
    rcases List.mem_cons.1 ht with rfl | ht
    · exact h.logAt F H m
    · exact ih (h.logAt F H m) t ht

theorem prefix_logsAt (moments : List (Moment ν)) (s : AuditLog ν) :
    ∀ t ∈ logsAt F H rbac moments s, s.rows <+: t.rows := by
  induction moments generalizing s with
  | nil => simp [logsAt]
  | cons m moments ih =>
    intro t ht
    rcases List.mem_cons.1 ht with rfl | ht
    · exact prefix_logAt F H m s
    · exact (prefix_logAt F H m s).trans (ih _ t ht)

theorem logsAt_grow (moments : List (Moment ν)) (s : AuditLog ν) :
    ((logsAt F H rbac moments s).map (selected rbac q)).Pairwise (· <+: ·) := by
  rw [List.pairwise_map]
  induction moments generalizing s with
  | nil => exact List.Pairwise.nil
  | cons m moments ih =>
    rw [logsAt, List.pairwise_cons]
    exact ⟨fun t ht => (prefix_logsAt F H moments _ t ht).filter _, ih _⟩

theorem selected_sorted (h : PrimaryKey s) : (idKeyset ν).Sorted (selected rbac q s) :=
  h.unique.sublist List.filter_sublist

theorem exportRows_eq_walk (hmay : MayExport rbac) (hs : PrimaryKey s) (moments : List (Moment ν))
    {c : Option Nat} (hc : ∀ id, c = some id → 0 < id) {w : Keyset.Walk (AuditRow ν .auditLog)}
    (hw : (idKeyset ν).walk 200 c ((logsAt F H rbac moments s).map (selected rbac q)) = w) :
    (exportRows F H rbac q (c.map cursorText) moments s).rows = w.shown ∧
      (exportRows F H rbac q (c.map cursorText) moments s).done = w.done ∧
      (w.done = true → (logsAt F H rbac moments s)[w.ends.length]? =
        some (exportRows F H rbac q (c.map cursorText) moments s).log) := by
  subst hw
  induction moments generalizing s c with
  | nil => simp [exportRows, logsAt, Keyset.walk]
  | cons m moments ih =>
    rw [exportRows, list_eq_page F H hmay hc m s, logsAt, List.map_cons, Keyset.walk]
    obtain ⟨shown, next, hpage⟩ : ∃ shown next, (idKeyset ν).page 200 c
      (selected rbac q (logAt F H rbac m s)) = (shown, next) := ⟨_, _, rfl⟩
    rw [hpage]
    cases next with
    | none => exact ⟨rfl, rfl, fun _ => rfl⟩
    | some r =>
      have hlog : PrimaryKey (logAt F H rbac m s) := hs.logAt F H m
      have hr : r ∈ (logAt F H rbac m s).rows := (List.mem_filter.1 (Keyset.mem_of_page hpage)).1
      have hnext := @ih _ hlog (some r.id) (fun id hid => by cases hid; exact hlog.positive r hr)
      exact ⟨congrArg (shown ++ ·) hnext.1, hnext.2.1, hnext.2.2⟩

def covers (rbac : RbacContext) (q : ExportQuery) (tenantId : Nat) (ts : Int) : Bool :=
  decide (tenantId = rbac.tenantId) && q.fromDate.all (fun d => decide (d * dayMicros ≤ ts)) &&
    q.toDate.all fun d => decide (ts ≤ d * dayMicros + (dayMicros - 1))

/-- How many rows that the export selects a page comes with, its own record among them. -/
def load (rbac : RbacContext) (q : ExportQuery) (m : Moment ν) : Nat :=
  m.arrivals.countP (fun a => covers rbac q a.tenantId a.body.ts) +
    if covers rbac q rbac.tenantId m.now then 1 else 0

theorem length_selected_insertRow (s : AuditLog ν) (a : NewRow ν) :
    (selected rbac q (insertRow F H s a)).length =
      (selected rbac q s).length + if covers rbac q a.tenantId a.body.ts then 1 else 0 := by
  have hrows : (insertRow F H s a).rows = s.rows ++ [newRow F H s a] := rfl
  have hrow : within rbac.tenantId q.fromDate q.toDate (newRow F H s a) =
      covers rbac q a.tenantId a.body.ts := rfl
  unfold selected
  rw [hrows, List.filter_append, List.length_append, List.filter_singleton, hrow]
  cases covers rbac q a.tenantId a.body.ts <;> rfl

theorem length_selected_insertRows (s : AuditLog ν) (l : List (NewRow ν)) :
    (selected rbac q (l.foldl (insertRow F H) s)).length =
      (selected rbac q s).length + l.countP fun a => covers rbac q a.tenantId a.body.ts := by
  induction l generalizing s with
  | nil => rfl
  | cons a l ih =>
    rw [List.foldl_cons, ih, length_selected_insertRow, List.countP_cons]
    omega

theorem length_selected_logAt (m : Moment ν) (s : AuditLog ν) :
    (selected rbac q (logAt F H rbac m s)).length = (selected rbac q s).length + load rbac q m := by
  unfold logAt load
  rw [length_selected_insertRow, length_selected_insertRows, Nat.add_assoc]
  rfl

theorem length_selected_logsAt {moments : List (Moment ν)} {k : Nat} {t : AuditLog ν}
    (h : (logsAt F H rbac moments s)[k]? = some t) :
    (selected rbac q t).length =
      (selected rbac q s).length + ((moments.take (k + 1)).map (load rbac q)).sum := by
  induction moments generalizing s k with
  | nil => cases h
  | cons m moments ih =>
    cases k with
    | zero =>
      obtain rfl : logAt F H rbac m s = t := by simpa [logsAt] using h
      simp [length_selected_logAt]
    | succ k =>
      rw [ih h, length_selected_logAt, List.take_succ_cons, List.map_cons, List.sum_cons,
        Nat.add_assoc]

theorem length_logsAt (moments : List (Moment ν)) (s : AuditLog ν) :
    (logsAt F H rbac moments s).length = moments.length := by
  induction moments generalizing s with
  | nil => rfl
  | cons m moments ih => rw [logsAt, List.length_cons, ih, List.length_cons]

/-- The export ends exactly when its pages come to hold all that was there at first and all
that came with them. It has then written the rows of the log as it is at the last page, each
once and in their order, with the records of the export itself. -/
theorem exportRows_spec (hmay : MayExport rbac) (hs : PrimaryKey s) (moments : List (Moment ν)) :
    ((exportRows F H rbac q none moments s).done = true ↔
        ∃ k < moments.length, (selected rbac q s).length +
          ((moments.take (k + 1)).map (load rbac q)).sum ≤ 200 * (k + 1)) ∧
      ((exportRows F H rbac q none moments s).done = true →
        (exportRows F H rbac q none moments s).rows =
          selected rbac q (exportRows F H rbac q none moments s).log) := by
  have hsorted : ∀ rows ∈ (logsAt F H rbac moments s).map (selected rbac q),
      (idKeyset ν).Sorted rows := by
    intro rows hrows
    obtain ⟨t, ht, rfl⟩ := List.mem_map.1 hrows
    exact selected_sorted (hs.logsAt F H moments t ht)
  obtain ⟨hends, hlast⟩ := Keyset.walk_growing (K := idKeyset ν) (c := none) (P := []) (n := 200)
    (by decide) (fun x y h => decide_eq_true h) hsorted (logsAt_grow F H moments s)
    (fun rows _ => List.nil_prefix) (fun rows _ => rfl)
  obtain ⟨hrows, hdone, hlog⟩ := exportRows_eq_walk F H (q := q) hmay hs moments (c := none)
    (by simp) rfl
  rw [Option.map_none] at hrows hdone hlog
  rw [hdone]
  constructor
  · simp only [hends, List.length_nil, Nat.zero_add]
    constructor
    · rintro ⟨k, rows, hk, hfits⟩
      rw [List.getElem?_map] at hk
      obtain ⟨t, ht, rfl⟩ := Option.map_eq_some_iff.1 hk
      rw [length_selected_logsAt F H ht] at hfits
      have hlt := (List.getElem?_eq_some_iff.1 ht).1
      rw [length_logsAt] at hlt
      exact ⟨k, hlt, hfits⟩
    · rintro ⟨k, hlt, hfits⟩
      rw [← @length_logsAt _ F H rbac moments s] at hlt
      have ht := List.getElem?_eq_getElem hlt
      refine ⟨k, selected rbac q (logsAt F H rbac moments s)[k], ?_, ?_⟩
      · rw [List.getElem?_map, ht]
        rfl
      · rw [length_selected_logsAt F H ht]
        exact hfits
  · intro h
    have hshown := hlast h
    rw [List.getElem?_map, hlog h, Option.map_some, Option.some.injEq, List.nil_append] at hshown
    rw [hrows, ← hshown]

def auditor : RbacContext := ⟨7, 1, ["audit:view", "audit:export"], none, none, none⟩

/-- Two hundred logins and the record of the first page, and then the record of the second. -/
def twoPages : List (Moment (Fin 10)) :=
  [⟨List.replicate 200 (loginAt 0), loginRow.ts, 0⟩, ⟨[], loginRow.ts, 0⟩]

theorem emptyLog_export_done :
    (exportRows smallNumbers sha256 auditor ⟨none, none⟩ none twoPages AuditLog.empty).done =
        true ∧
      (exportRows smallNumbers sha256 auditor ⟨none, none⟩ none twoPages AuditLog.empty).rows =
        selected auditor ⟨none, none⟩
          (exportRows smallNumbers sha256 auditor ⟨none, none⟩ none twoPages AuditLog.empty).log := by
  have hmay : MayExport auditor := ⟨by decide, by decide⟩
  have hempty : PrimaryKey (AuditLog.empty : AuditLog (Fin 10)) :=
    ⟨List.Pairwise.nil, by simp [AuditLog.empty], by decide⟩
  obtain ⟨hends, hrows⟩ := exportRows_spec smallNumbers sha256 hmay hempty (q := ⟨none, none⟩) twoPages
  have hdone := hends.2 ⟨1, by decide, by decide +kernel⟩
  exact ⟨hdone, hrows hdone⟩

end Export

section File

/-- `csvCell` puts a cell between quotes for these. -/
def csvQuotes (c : Char) : Bool := c == ',' || c == '"' || c == '\n'

def csvRow (cells : List (List Char)) : List Char := Csv.record csvQuotes cells ++ ['\n']

def csvHeader : List (List Char) :=
  ["id", "ts", "action", "actor_kind", "actor_user_id", "entity_type", "entity_id", "row_hash",
    "prev_hash"].map String.toList

def csvCells (dateText : Int → List Char) (r : AuditRow ν .auditLog) : List (List Char) :=
  [Nat.toDigits 10 r.id, dateText r.body.ts, r.body.action.toList, r.body.actorKind.toList,
    (r.body.actorUserId.map (Nat.toDigits 10)).getD [], r.body.entityType.toList,
    (r.body.entityId.map String.toList).getD [], r.rowHash.toList, r.prevHash.toList]

def exportCsv (dateText : Int → List Char) (rows : List (AuditRow ν .auditLog)) : List Char :=
  csvRow csvHeader ++ rows.flatMap fun r => csvRow (csvCells dateText r)

theorem safe_csvQuotes_iff {s : List Char} :
    Csv.Safe csvQuotes s ↔ ('\r' ∈ s → s.any csvQuotes = true) := by
  constructor
  · rintro (h | h) hcr
    · exact h
    · exact absurd (h _ hcr) (by decide)
  · intro h
    by_cases hcr : '\r' ∈ s
    · exact Or.inl (h hcr)
    · by_cases hquote : s.any csvQuotes = true
      · exact Or.inl hquote
      · right
        intro c hc
        have hne : c ≠ '\r' := by
          rintro rfl
          exact hcr hc
        have hplain : csvQuotes c = false := by
          by_contra hno
          exact hquote (List.any_eq_true.2 ⟨c, hc, Bool.of_not_eq_false hno⟩)
        simp only [csvQuotes, Bool.or_eq_false_iff] at hplain
        simp [Csv.special, hplain, hne]

/-- The exported file is read back as its rows unless a carriage return stands in a cell
that nothing else puts between quotes. -/
theorem exportCsv_reads_back_iff (dateText : Int → List Char)
    (rows : List (AuditRow ν .auditLog)) :
    Csv.parse (exportCsv dateText rows) = some (csvHeader :: rows.map (csvCells dateText)) ↔
      ∀ r ∈ rows, ∀ s ∈ csvCells dateText r, '\r' ∈ s → s.any csvQuotes = true := by
  have hquotes : ∀ c, Csv.special c = true → c ≠ '\r' → csvQuotes c = true := by
    intro c hc hne
    simp [Csv.special, hne] at hc
    simp [csvQuotes]
    tauto
  have hfile : exportCsv dateText rows =
      (csvHeader :: rows.map (csvCells dateText)).flatMap fun l =>
        Csv.record csvQuotes l ++ ['\n'] := by
    rw [List.flatMap_cons, List.flatMap_map]
    rfl
  have hheader : ∀ s ∈ csvHeader, Csv.Safe csvQuotes s := by
    intro s hs
    rw [safe_csvQuotes_iff]
    revert s
    decide
  have hne : ∀ l ∈ csvHeader :: rows.map (csvCells dateText), l ≠ [] := by
    intro l hl
    rcases List.mem_cons.1 hl with rfl | hl
    · decide
    · obtain ⟨r, -, rfl⟩ := List.mem_map.1 hl
      exact List.cons_ne_nil _ _
  rw [hfile, Csv.parse_lines_iff hquotes hne, List.forall_mem_cons, and_iff_right hheader]
  simp only [List.forall_mem_map, safe_csvQuotes_iff]

end File

end Audit

end Vici2
