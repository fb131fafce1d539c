import Mathlib.Data.Prod.Lex
import Vici2.CursorPaging
import Vici2.JsInstant
import Vici2.JsonText
import Vici2.KeysetPaging
import Vici2.ListReset
import Vici2.RbacCache

/-! Listing the leads of a tenant page by page. The rows are ordered by a time in
microseconds; the cursor holds it in milliseconds. -/

namespace Vici2

namespace Leads

open JsDate Vici2.Lists

inductive SortOrder
  | modifyAtDesc
  | createdAtDesc
  deriving DecidableEq, Repr

def SortOrder.text : SortOrder → String
  | .modifyAtDesc => "modify_at_desc"
  | .createdAtDesc => "created_at_desc"

def cursorVersion : Rat := 1

structure DecodedCursor where
  timestamp : Int
  id : Int
  sort : SortOrder
  deriving DecidableEq, Repr

structure CursorError where
  code : String
  message : String
  deriving DecidableEq, Repr

/-- What the language makes of the texts that no cursor is written with. -/
structure Texts where
  date : List Char → Option Int
  bigInt : List Char → Option Int
  shown : Option (Json Rat) → String

def encodeCursor (ts id : Int) (sort : SortOrder) : Json Rat :=
  .obj [("v", .num cursorVersion),
    ("k", .arr [.str (String.ofList (toISOString ts)), .str (toString id)]),
    ("sort", .str sort.text)]

/-- A field of a parsed payload; the last of two members of one name counts. -/
def field (name : String) : Json Rat → Option (Json Rat)
  | .obj members => members.reverse.lookup name
  | _ => none

def isVersion : Option (Json Rat) → Bool
  | some (.num v) => v == cursorVersion
  | _ => false

/-- `none` is a text that is not the base64url of a JSON text. -/
def decodeCursor (T : Texts) (payload : Option (Json Rat)) (expectedSort : SortOrder) :
    Except CursorError DecodedCursor :=
  match payload with
  | none => .error ⟨"INVALID_CURSOR", "Cursor is not valid base64url JSON"⟩
  | some .null | some (.bool _) | some (.num _) | some (.str _) =>
    .error ⟨"INVALID_CURSOR", "Cursor payload is not an object"⟩
  | some p =>
    if !isVersion (field "v" p) then
      .error ⟨"INVALID_CURSOR_VERSION", "Cursor version mismatch: expected 1, got " ++
        T.shown (field "v" p)⟩
    else
      match field "k" p with
      | some (.arr [.str tsRaw, .str idRaw]) =>
        match field "sort" p with
        | some (.str sort) =>
          if sort ≠ expectedSort.text then
            .error ⟨"CURSOR_SORT_MISMATCH", "Cursor sort \"" ++ sort ++
              "\" does not match requested sort \"" ++ expectedSort.text ++ "\""⟩
          else
            match newDate T.date tsRaw.toList with
            | none => .error ⟨"INVALID_CURSOR", "Cursor timestamp is not a valid ISO8601 string"⟩
            | some ts =>
              match (Rbac.bigInt idRaw.toList).or (T.bigInt idRaw.toList) with
              | none => .error ⟨"INVALID_CURSOR", "Cursor id is not a valid integer"⟩
              | some id => .ok ⟨ts, id, expectedSort⟩
        | _ => .error ⟨"INVALID_CURSOR", "Cursor sort field missing"⟩
      | some (.arr [_, _]) => .error ⟨"INVALID_CURSOR", "Cursor k elements must be strings"⟩
      | _ => .error ⟨"INVALID_CURSOR", "Cursor k field must be a 2-element array"⟩

theorem decodeCursor_encodeCursor (T : Texts) {ts : Int} (id : Int) (sort : SortOrder)
    (hts : 0 ≤ year ts ∧ year ts ≤ 9999) :
    decodeCursor T (some (encodeCursor ts id sort)) sort = .ok ⟨ts, id, sort⟩ := by
  have hdate := newDate_toISOString T.date hts
  have hid : Rbac.bigInt id.repr.toList = some id := Rbac.bigInt_intText id
  simp [decodeCursor, encodeCursor, field, isVersion, List.lookup_cons, hdate, hid]

/-- A `Date` counts whole milliseconds; the rest of the column is dropped. -/
def toDate (us : Int) : Int := us / 1000

/-- A column holds times of the years that have four digits. -/
def Storable (us : Int) : Prop := 0 ≤ year (toDate us) ∧ year (toDate us) ≤ 9999

instance (us : Int) : Decidable (Storable us) := inferInstanceAs (Decidable (_ ∧ _))

/-- How texts of the table compare: for equality, and with a text that they start with. -/
structure Collation where
  same : String → String → Bool
  startsWith : String → String → Bool

structure LeadTable extends Keyed Lead.id where
  storable : ∀ l ∈ rows, Storable l.modifyAt ∧ Storable l.createdAt

structure LeadListQuery where
  listId : List Int
  status : List String
  ownerUserId : Option Int
  phoneE164 : Option String
  state : Option String
  minCalled : Option Int
  maxCalled : Option Int
  createdAfter : Option Int
  createdBefore : Option Int
  modifiedAfter : Option Int
  modifiedBefore : Option Int
  search : Option String
  includeDeleted : Bool
  limit : Nat
  sort : SortOrder
  withCount : Bool
  limit_range : 1 ≤ limit ∧ limit ≤ 200

def SortOrder.time : SortOrder → Lead → Int
  | .modifyAtDesc, l => l.modifyAt
  | .createdAtDesc, l => l.createdAt

def inRange (us : Int) (after before : Option Int) : Bool :=
  after.all (fun t => decide (t * 1000 ≤ us)) && before.all (fun t => decide (us ≤ t * 1000))

def matches' (C : Collation) (tenantId : Int) (q : LeadListQuery) (l : Lead) : Bool :=
  decide (l.tenantId = tenantId) && (q.includeDeleted || l.deletedAt.isNone) &&
  (q.listId.isEmpty || q.listId.contains l.listId) &&
  (q.status.isEmpty || q.status.any (C.same l.status)) &&
  q.ownerUserId.all (fun u => decide (l.columns.ownerUserId = some u)) &&
  q.phoneE164.all (fun p => p.isEmpty || C.same l.columns.phoneE164 p) &&
  q.state.all (fun s => l.columns.state.any fun t => C.same t s) &&
  q.minCalled.all (fun n => decide (n ≤ l.calledCount)) &&
  q.maxCalled.all (fun n => decide (l.calledCount ≤ n)) &&
  inRange l.createdAt q.createdAfter q.createdBefore &&
  inRange l.modifyAt q.modifiedAfter q.modifiedBefore &&
  q.search.all fun s => [l.columns.lastName, l.columns.firstName, l.columns.email,
    l.columns.vendorLeadCode].any fun t => t.any fun t => C.startsWith t s

/-- The order of the rows: the latest first, and of those of one time the highest id. -/
def SortOrder.place (sort : SortOrder) (l : Lead) : Int ×ₗ Int := toLex (-sort.time l, -l.id)

def orderBy (sort : SortOrder) (rows : List Lead) : List Lead :=
  rows.insertionSort fun a b => sort.place a ≤ sort.place b

def behind (c : DecodedCursor) (l : Lead) : Bool :=
  decide (c.sort.time l < c.timestamp * 1000) ||
    (decide (c.sort.time l = c.timestamp * 1000) && decide (l.id < c.id))

structure Page where
  data : List Lead
  limit : Nat
  hasMore : Bool
  nextCursor : Option (Json Rat)
  count : Option (Nat × Bool)

inductive Reply
  | ok (page : Page)
  | badRequest (e : CursorError)
  | forbidden (e : CursorError)

/-- The count and whether it is capped. -/
def cappedCount (n : Nat) : Nat × Bool := if 100001 ≤ n then (100000, true) else (n, false)

def list (T : Texts) (C : Collation) (tenantId : Int) (role : Rbac.Role) (q : LeadListQuery)
    (cursor : Option (Option (Json Rat))) (t : LeadTable) : Reply :=
  let decoded : Except CursorError (Option DecodedCursor) :=
    match cursor with
    | none => .ok none
    | some raw => (decodeCursor T raw q.sort).map some
  match decoded with
  | .error e => .badRequest e
  | .ok decoded =>
    let found := t.rows.filter fun l => matches' C tenantId q l && decoded.all (behind · l)
    let leads := (orderBy q.sort found).take (q.limit + 1)
    let hasMore := decide (q.limit < leads.length)
    let pageLeads := if hasMore then leads.take q.limit else leads
    let nextCursor := if hasMore then pageLeads.getLast?.map fun last =>
      encodeCursor (toDate (q.sort.time last)) last.id q.sort else none
    if q.withCount ∧ ¬ Rbac.roleAtLeast role .admin then
      .forbidden ⟨"ADMIN_ONLY", "withCount requires admin role"⟩
    else .ok ⟨pageLeads, q.limit, hasMore, nextCursor,
      if q.withCount then some (cappedCount found.length) else none⟩

/-- A client that asks for one page after the other, with the cursor of the last answer.
The table may be another at each request. -/
def browse (T : Texts) (C : Collation) (tenantId : Int) (role : Rbac.Role) (q : LeadListQuery) :
    Option (Json Rat) → List LeadTable → Keyset.Walk Lead
  | _, [] => ⟨[], [], false⟩
  | cursor, t :: tables =>
    match list T C tenantId role q (cursor.map some) t with
    | .ok page =>
      match page.nextCursor with
      | none => ⟨page.data, [], true⟩
      | some next =>
        let rest := browse T C tenantId role q (some next) tables
        ⟨page.data ++ rest.shown, page.data.getLast?.toList ++ rest.ends, rest.done⟩
    | _ => ⟨[], [], false⟩

section Browse

variable {T : Texts} {C : Collation} {tenantId : Int} {role : Rbac.Role} {q : LeadListQuery}

theorem place_lt {sort : SortOrder} {a b : Lead} : sort.place a < sort.place b ↔
    sort.time b < sort.time a ∨ (sort.time b = sort.time a ∧ b.id < a.id) := by
  unfold SortOrder.place
  rw [Prod.Lex.toLex_lt_toLex]
  constructor <;> rintro (h | ⟨h, h'⟩) <;> [left; right; left; right] <;> dsimp at * <;> omega

theorem behind_iff {c : DecodedCursor} {l : Lead} : behind c l = true ↔
    c.sort.time l < c.timestamp * 1000 ∨ (c.sort.time l = c.timestamp * 1000 ∧ l.id < c.id) := by
  simp [behind]

def keyset (sort : SortOrder) : Keyset Lead DecodedCursor (Int ×ₗ Int) where
  ord := sort.place
  cursor l := ⟨toDate (sort.time l), l.id, sort⟩
  after c l := decide (c.sort = sort) && behind c l
  after_of_lt := by
    intro c x y hlt h
    rw [Bool.and_eq_true, decide_eq_true_eq, behind_iff] at h ⊢
    obtain ⟨rfl, h⟩ := h
    rw [place_lt] at hlt
    exact ⟨rfl, by omega⟩
  lt_of_after := by
    intro x y h
    rw [Bool.and_eq_true, behind_iff] at h
    rw [place_lt]
    unfold toDate at h
    dsimp only at h
    obtain ⟨-, h⟩ := h
    omega

def found (C : Collation) (tenantId : Int) (q : LeadListQuery) (t : LeadTable) : List Lead :=
  orderBy q.sort (t.rows.filter (matches' C tenantId q))

theorem mem_found {l : Lead} {t : LeadTable} :
    l ∈ found C tenantId q t ↔ l ∈ t.rows ∧ matches' C tenantId q l = true := by
  unfold found orderBy
  rw [List.mem_insertionSort, List.mem_filter]

theorem orderBy_sorted {rows : List Lead} (h : rows.Pairwise fun a b => a.id ≠ b.id)
    (sort : SortOrder) : (keyset sort).Sorted (orderBy sort rows) := by
  have hle := (Answer.insertionSort sort.place rows).sorted
  have hid : (orderBy sort rows).Pairwise fun a b => a.id ≠ b.id :=
    ((Answer.insertionSort sort.place rows).perm.pairwise_iff fun h => Ne.symm h).2 h
  refine (hle.and hid).imp ?_
  rintro a b ⟨hab, hne⟩
  apply lt_of_le_of_ne hab
  intro heq
  have hsame := congrArg (fun p => (ofLex p).2) heq
  exact hne (neg_injective hsame)

theorem ids_ne (t : LeadTable) (p : Lead → Bool) :
    (t.rows.filter p).Pairwise fun a b => a.id ≠ b.id :=
  (t.sorted.sublist List.filter_sublist).imp fun h => Int.ne_of_lt h

theorem found_sorted (t : LeadTable) : (keyset q.sort).Sorted (found C tenantId q t) :=
  orderBy_sorted (ids_ne t _) q.sort

theorem orderBy_filter (sort : SortOrder) {rows : List Lead}
    (h : rows.Pairwise fun a b => a.id ≠ b.id) (p : Lead → Bool) :
    orderBy sort (rows.filter p) = (orderBy sort rows).filter p := by
  have hperm : (orderBy sort (rows.filter p)).Perm ((orderBy sort rows).filter p) :=
    (Answer.insertionSort sort.place _).perm.trans
      ((Answer.insertionSort sort.place rows).perm.filter p).symm
  apply hperm.eq_of_pairwise _ (orderBy_sorted (h.sublist List.filter_sublist) sort)
    (List.Pairwise.filter p (orderBy_sorted h sort))
  intro a b _ _ hab hba
  exact absurd hba (lt_asymm hab)

def MayCount (role : Rbac.Role) (q : LeadListQuery) : Prop :=
  q.withCount = true → Rbac.roleAtLeast role .admin = true

def text (d : DecodedCursor) : Json Rat := encodeCursor d.timestamp d.id d.sort

theorem behind_eq_after {c : DecodedCursor} {sort : SortOrder} (h : c.sort = sort) :
    behind c = (keyset sort).after c := by
  funext l
  simp [keyset, h]

theorem list_eq_page (T : Texts) (C : Collation) (tenantId : Int) (hrole : MayCount role q)
    {c : Option DecodedCursor}
    (hc : ∀ d, c = some d → d.sort = q.sort ∧ 0 ≤ year d.timestamp ∧ year d.timestamp ≤ 9999)
    (t : LeadTable) : ∃ hasMore count,
      list T C tenantId role q ((c.map text).map some) t =
        .ok ⟨((keyset q.sort).page q.limit c (found C tenantId q t)).1, q.limit, hasMore,
          ((keyset q.sort).page q.limit c (found C tenantId q t)).2.map fun x =>
            text ((keyset q.sort).cursor x), count⟩ := by
  have hfetch : (orderBy q.sort (t.rows.filter fun l => matches' C tenantId q l &&
      c.all (behind · l))) = (keyset q.sort).fetch c (found C tenantId q t) := by
    cases c with
    | none => simp [found, Keyset.fetch]
    | some d =>
      have hsort := (hc d rfl).1
      have hand : (t.rows.filter fun l => matches' C tenantId q l && (some d).all (behind · l)) =
          (t.rows.filter (matches' C tenantId q)).filter (behind d) := by
        rw [List.filter_filter]
        congr 1
        funext l
        rw [Bool.and_comm]
        rfl
      rw [hand, orderBy_filter q.sort (ids_ne t _), behind_eq_after hsort]
      rfl
  have hdecoded : (match (c.map text).map some with
      | none => Except.ok none
      | some raw => (decodeCursor T raw q.sort).map some) = Except.ok c := by
    cases c with
    | none => rfl
    | some d =>
      obtain ⟨hsort, hyear⟩ := hc d rfl
      have hread := decodeCursor_encodeCursor T d.id d.sort hyear
      rw [hsort] at hread
      simp only [Option.map_some, text, hsort, hread, Except.map]
      rw [← hsort]
  have hadmin : ¬ (q.withCount = true ∧ ¬ Rbac.roleAtLeast role .admin = true) :=
    fun h => h.2 (hrole h.1)
  unfold list
  rw [hdecoded]
  dsimp only
  rw [if_neg hadmin, hfetch]
  unfold Keyset.page
  dsimp only
  by_cases hmore : q.limit < (((keyset q.sort).fetch c (found C tenantId q t)).take
      (q.limit + 1)).length
  · simp only [hmore, decide_true, if_true]
    exact ⟨_, _, rfl⟩
  · simp only [hmore, decide_false, if_false, Bool.false_eq_true]
    exact ⟨_, _, rfl⟩

theorem browse_eq_walk (T : Texts) (C : Collation) (tenantId : Int) (hrole : MayCount role q)
    {c : Option DecodedCursor}
    (hc : ∀ d, c = some d → d.sort = q.sort ∧ 0 ≤ year d.timestamp ∧ year d.timestamp ≤ 9999)
    (tables : List LeadTable) : browse T C tenantId role q (c.map text) tables =
      (keyset q.sort).walk q.limit c (tables.map (found C tenantId q)) := by
  induction tables generalizing c with
  | nil => rfl
  | cons t tables ih =>
    obtain ⟨hasMore, count, hlist⟩ := list_eq_page T C tenantId hrole hc t
    rw [browse, hlist, List.map_cons, Keyset.walk]
    obtain ⟨shown, next, hpage⟩ : ∃ shown next,
      (keyset q.sort).page q.limit c (found C tenantId q t) = (shown, next) := ⟨_, _, rfl⟩
    rw [hpage]
    cases next with
    | none => rfl
    | some x =>
      have hx := (mem_found.1 (Keyset.mem_of_page hpage)).1
      have hstorable : Storable (q.sort.time x) := by
        cases q.sort with
        | modifyAtDesc => exact (t.storable x hx).1
        | createdAtDesc => exact (t.storable x hx).2
      have hnext := @ih (some ((keyset q.sort).cursor x))
        (fun d hd => by cases hd; exact ⟨rfl, hstorable⟩)
      dsimp only [Option.map_some] at hnext ⊢
      rw [hnext, Keyset.getLast?_of_page hpage]
      rfl

/-- A page that ends with `x` hides the lead from the rest of the walk: it comes behind `x`
within the same millisecond, and what the cursor keeps of that time does not ask for it. -/
def Hides (sort : SortOrder) (x l : Lead) : Prop :=
  sort.place x < sort.place l ∧ toDate (sort.time l) = toDate (sort.time x) ∧
    ¬ (sort.time l % 1000 = 0 ∧ l.id < x.id)

theorem after_iff_not_hides {sort : SortOrder} {x l : Lead} :
    (sort.place x < sort.place l →
      (keyset sort).after ((keyset sort).cursor x) l = true) ↔ ¬ Hides sort x l := by
  have hafter : (keyset sort).after ((keyset sort).cursor x) l = true ↔
      sort.time l < toDate (sort.time x) * 1000 ∨
        (sort.time l = toDate (sort.time x) * 1000 ∧ l.id < x.id) := by
    simp [keyset, behind]
  rw [hafter]
  unfold Hides
  rw [place_lt]
  unfold toDate
  constructor
  · rintro h ⟨hlt, hsame, hno⟩
    rcases h hlt with h | h <;> omega
  · intro h hlt
    by_contra hno
    apply h
    refine ⟨hlt, ?_, ?_⟩ <;> omega

/-- From one table to the other no lead's time goes back. -/
def Forward (sort : SortOrder) (t t' : LeadTable) : Prop :=
  ∀ l ∈ t.rows, ∀ l' ∈ t'.rows, l.id = l'.id → sort.time l ≤ sort.time l'

/-- A client that goes through the listing is shown leads at ever later places, and so no lead
twice unless its time has gone back; a lead that stays as it is it is shown exactly when no page
hides it. Over a table at rest it comes to the end. -/
theorem browse_spec (T : Texts) (C : Collation) (tenantId : Int) (hrole : MayCount role q)
    (tables : List LeadTable) :
    ((browse T C tenantId role q none tables).shown.Pairwise fun a b =>
        q.sort.place a < q.sort.place b) ∧
      (tables.Pairwise (Forward q.sort) →
        ((browse T C tenantId role q none tables).shown.map Lead.id).Nodup) ∧
      (∀ t, (∀ t' ∈ tables, t' = t) → t.rows.length < tables.length →
        (browse T C tenantId role q none tables).done = true) ∧
      ((browse T C tenantId role q none tables).done = true → ∀ l,
        (∀ t ∈ tables, l ∈ t.rows) → matches' C tenantId q l = true →
        (l ∈ (browse T C tenantId role q none tables).shown ↔
          ∀ x ∈ (browse T C tenantId role q none tables).ends, ¬ Hides q.sort x l)) := by
  have hwalk := browse_eq_walk T C tenantId hrole
    (c := none) (by simp) tables
  have hpos : 0 < q.limit := q.limit_range.1
  have hsorted : ∀ rows ∈ tables.map (found C tenantId q), (keyset q.sort).Sorted rows := by
    intro rows hrows
    obtain ⟨t, -, rfl⟩ := List.mem_map.1 hrows
    exact found_sorted t
  rw [Option.map_none] at hwalk
  rw [hwalk]
  have hplaces := Keyset.shown_sorted (c := none) hpos hsorted
  refine ⟨hplaces, ?_, ?_, ?_⟩
  · intro hforward
    have htimes : ((keyset q.sort).walk q.limit none (tables.map (found C tenantId q))).shown.Pairwise
        fun a b => a.id = b.id → q.sort.time a ≤ q.sort.time b := by
      apply Keyset.shown_pairwise hpos
      · intro rows hrows
        obtain ⟨t, -, rfl⟩ := List.mem_map.1 hrows
        have hne := ((Answer.insertionSort q.sort.place
          (t.rows.filter (matches' C tenantId q))).perm.pairwise_iff
            fun h => Ne.symm h).2 (ids_ne t _)
        exact hne.imp fun h heq => absurd heq h
      · rw [List.pairwise_map]
        refine hforward.imp fun h a ha b hb => ?_
        exact h a (mem_found.1 ha).1 b (mem_found.1 hb).1
    refine List.pairwise_map.2 ((hplaces.and htimes).imp ?_)
    rintro a b ⟨hplace, htime⟩ heq
    have hle := htime heq
    rcases place_lt.1 hplace with hlt | ⟨-, hlt⟩
    · exact absurd hlt (not_lt.2 hle)
    · exact absurd heq.symm hlt.ne
  · intro t hall hlen
    have hrows : tables.map (found C tenantId q) =
        List.replicate tables.length (found C tenantId q t) := by
      apply List.eq_replicate_iff.2
      refine ⟨List.length_map _, ?_⟩
      intro rows hrows
      obtain ⟨t', ht', rfl⟩ := List.mem_map.1 hrows
      rw [hall t' ht']
    have hfound : (found C tenantId q t).length ≤ t.rows.length := by
      unfold found orderBy
      rw [List.length_insertionSort]
      exact List.length_filter_le _ _
    rw [hrows]
    exact Keyset.done_of_still hpos (lt_of_le_of_lt hfound hlen)
  · intro hdone l hstays hmatch
    rw [Keyset.mem_shown_iff hpos hsorted _ hdone (by simp)]
    · exact forall_congr' fun x => imp_congr_right fun _ => after_iff_not_hides
    · intro rows hrows
      obtain ⟨t, ht, rfl⟩ := List.mem_map.1 hrows
      exact mem_found.2 ⟨hstays t ht, hmatch⟩

/-- Three leads of one batch, written within a millisecond. -/
def oneBatch : LeadTable where
  rows := [0, 1, 2].map fun i =>
    { numberedLead "NEW" none i with modifyAt := 1500, createdAt := 1500 }
  sorted := by decide
  storable := by decide

def onePerPage : LeadListQuery where
  listId := [7]
  status := []
  ownerUserId := none
  phoneE164 := none
  state := none
  minCalled := none
  maxCalled := none
  createdAfter := none
  createdBefore := none
  modifiedAfter := none
  modifiedBefore := none
  search := none
  includeDeleted := false
  limit := 1
  sort := .modifyAtDesc
  withCount := false
  limit_range := by decide

def noTexts : Texts where
  date _ := none
  bigInt _ := none
  shown _ := "undefined"

def plainCollation : Collation where
  same a b := a == b
  startsWith a b := a.startsWith b

theorem oneBatch_ends :
    (browse noTexts plainCollation 1 .agent onePerPage none (List.replicate 4 oneBatch)).done =
        true ∧
      ((browse noTexts plainCollation 1 .agent onePerPage none
        (List.replicate 4 oneBatch)).shown.map Lead.id).Nodup := by
  have hrole : MayCount .agent onePerPage := by
    intro h
    cases h
  have hforward : Forward onePerPage.sort oneBatch oneBatch := by
    unfold Forward
    decide
  have hspec := browse_spec noTexts plainCollation 1 hrole (List.replicate 4 oneBatch)
  exact ⟨hspec.2.2.1 oneBatch (fun t' ht' => List.eq_of_mem_replicate ht') (by decide),
    hspec.2.1 (List.pairwise_replicate.2 (Or.inr hforward))⟩

/-- Of leads that were written at one time, as the copies of one batch are, only the first
page is ever shown, unless that time is of whole milliseconds. -/
theorem browse_batch (hrole : MayCount role q) {t : LeadTable} {us : Int}
    (hbatch : ∀ l ∈ t.rows, matches' C tenantId q l = true → q.sort.time l = us)
    (hus : us % 1000 ≠ 0) {k : Nat} :
    (browse T C tenantId role q none (List.replicate (k + 2) t)).shown =
      (found C tenantId q t).take q.limit := by
  have hwalk := browse_eq_walk T C tenantId hrole
    (c := none) (by simp) (List.replicate (k + 2) t)
  rw [Option.map_none] at hwalk
  rw [hwalk, List.map_replicate, List.replicate_succ, List.replicate_succ]
  have htime : ∀ l ∈ found C tenantId q t, q.sort.time l = us := by
    intro l hl
    exact hbatch l (mem_found.1 hl).1 (mem_found.1 hl).2
  rcases Keyset.fetch_cases (keyset q.sort) none (found C tenantId q t) q.limit_range.1 with
    hlast | ⟨A, x, B, hsplit, hA, hB⟩
  · rw [Keyset.walk_last hlast]
    exact (List.take_of_length_le hlast).symm
  · have hnone : (keyset q.sort).fetch (some ((keyset q.sort).cursor x))
        (found C tenantId q t) = [] := by
      apply List.filter_eq_nil_iff.2
      intro l hl hafter
      have hx : x ∈ found C tenantId q t := by
        have hmem : x ∈ (keyset q.sort).fetch none (found C tenantId q t) := by
          rw [hsplit]
          simp
        exact hmem
      have hbehind := behind_iff.1 (Bool.and_eq_true_iff.1 hafter).2
      simp only [keyset, toDate, htime l hl, htime x hx] at hbehind
      omega
    rw [Keyset.walk_next hsplit hA hB, Keyset.walk_last (by rw [hnone]; simp), hnone,
      List.append_nil]
    have hfound : found C tenantId q t = (A ++ [x]) ++ B := by
      rw [← List.append_cons]
      exact hsplit
    have hfirst : (A ++ [x]).length = q.limit := by simp [hA]
    rw [hfound, ← hfirst, List.take_left]

theorem oneBatch_shown :
    (browse noTexts plainCollation 1 .agent onePerPage none (List.replicate 2 oneBatch)).shown.map
      Lead.id = [3] := by
  have hrole : MayCount .agent onePerPage := by
    intro h
    cases h
  have htime : ∀ l ∈ oneBatch.rows, matches' plainCollation 1 onePerPage l = true →
      onePerPage.sort.time l = 1500 := by
    intro l hl _
    revert l
    decide
  rw [browse_batch hrole htime (by decide)]
  decide +kernel

end Browse

end Leads

end Vici2
