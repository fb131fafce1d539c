import Mathlib.Data.Prod.Lex
import Vici2.Callbacks
import Vici2.CursorPaging

/-! The two listings of callbacks. Their pages come by due time, their cursor compares
ids; the stale ones are picked out after a page is fetched. -/

namespace Vici2

namespace Callbacks

structure CallbackRow where
  id : Int
  tenantId : Int
  campaignId : String
  userId : Option Int
  callbackAt : Int
  status : CallbackStatus
  deriving DecidableEq, Repr

/-- The newest callback stands first. -/
structure CallbackTable where
  rows : List CallbackRow
  newest : rows.Pairwise fun a b => b.id < a.id

inductive Scope
  | global
  | agent
  deriving DecidableEq, Repr

/-- The place of a status in the enumeration of the column. -/
def CallbackStatus.index : CallbackStatus → Nat
  | .live => 1
  | .pending => 2
  | .done => 3
  | .dead => 4

def defaultLimit : Nat := 50

/-- `id: { lt: cursor }`, when the cursor is not falsy. -/
def beforeCursor (cursor : Option Int) (r : CallbackRow) : Bool :=
  match cursor with
  | none => true
  | some c => c == 0 || decide (r.id < c)

def mineWhere (actor : AuthContext) (r : CallbackRow) : Bool :=
  r.tenantId == actor.tenantId && r.userId == some actor.uid &&
    decide (r.status ∈ [CallbackStatus.pending, .live])

/-- `order` is the answer to `ORDER BY status, callback_at`. -/
def listMineCallbacks (order : List CallbackRow → List CallbackRow) (table : CallbackTable)
    (actor : AuthContext) (cursor : Option Int) (limit : Option Nat) :
    List CallbackRow × Option Int :=
  let take := limit.getD defaultLimit
  let rows := (order (table.rows.filter fun r =>
    mineWhere actor r && beforeCursor cursor r)).take (take + 1)
  if take < rows.length then
    (rows.dropLast, rows.dropLast.getLast?.map CallbackRow.id)
  else (rows, none)

structure AdminFilters where
  statuses : Option (List CallbackStatus)
  scope : Option Scope
  userId : Option Int
  campaignId : Option String
  dueFrom : Option Int
  dueTo : Option Int
  staleOnly : Bool
  limit : Option Nat

/-- A user id of 0 and an empty campaign are no filters; a user id takes the place of
the scope. -/
def AdminFilters.userMatches (f : AdminFilters) (userId : Option Int) : Bool :=
  match f.userId.filter (· ≠ 0), f.scope with
  | some uid, _ => userId == some uid
  | none, some .global => userId.isNone
  | none, some .agent => userId.isSome
  | none, none => true

def adminWhere (coll : String → String) (actor : AuthContext) (f : AdminFilters)
    (r : CallbackRow) : Bool :=
  r.tenantId == actor.tenantId &&
    decide (r.status ∈ f.statuses.getD [.pending, .live]) &&
    f.userMatches r.userId &&
    ((f.campaignId.filter (· ≠ "")).all fun c => coll r.campaignId == coll c) &&
    (f.dueFrom.all fun t => decide (t ≤ r.callbackAt)) &&
    f.dueTo.all fun t => decide (r.callbackAt ≤ t)

def staleThresholdMs : Int := 4 * 3600 * 1000

def stale (now : Int) (r : CallbackRow) : Bool :=
  decide (r.status = .live) && decide (staleThresholdMs < now - r.callbackAt)

/-- `order` is the answer to `ORDER BY callback_at`. -/
def listCallbacksAdmin (coll : String → String) (order : List CallbackRow → List CallbackRow)
    (table : CallbackTable) (actor : AuthContext) (f : AdminFilters) (now : Int)
    (cursor : Option Int) : List CallbackRow × Option Int :=
  let take := f.limit.getD defaultLimit
  let rows := (order (table.rows.filter fun r =>
    adminWhere coll actor f r && beforeCursor cursor r)).take (take + 1)
  let results := if f.staleOnly then rows.filter (stale now) else rows
  if take < results.length then
    (results.dropLast, results.dropLast.getLast?.map CallbackRow.id)
  else (results, none)

def mineOrd (r : CallbackRow) : Nat ×ₗ Int := toLex (r.status.index, r.callbackAt)

/-- The callbacks an administrator asks for. -/
def adminMatches (coll : String → String) (actor : AuthContext) (f : AdminFilters) (now : Int)
    (r : CallbackRow) : Bool :=
  adminWhere coll actor f r && (!f.staleOnly || stale now r)

/-- However equal rows are ordered at each request, following the cursor ends, and every
matching callback has been returned once. -/
def MineExact (table : CallbackTable) (actor : AuthContext) (limit : Option Nat) : Prop :=
  ∀ orders : Nat → List CallbackRow → List CallbackRow,
    (∀ k W, Answer mineOrd W (orders k W)) → ∃ fuel out,
      follow (fun k cursor => listMineCallbacks (orders k) table actor cursor limit) fuel none =
        some out ∧
      out.Perm (table.rows.filter (mineWhere actor))

def AdminExact (coll : String → String) (table : CallbackTable) (actor : AuthContext)
    (f : AdminFilters) (now : Int) : Prop :=
  ∀ orders : Nat → List CallbackRow → List CallbackRow,
    (∀ k W, Answer CallbackRow.callbackAt W (orders k W)) → ∃ fuel out,
      follow (fun k => listCallbacksAdmin coll (orders k) table actor f now) fuel none =
        some out ∧
      out.Perm (table.rows.filter (adminMatches coll actor f now))

def minePaging (limit : Option Nat) (hlimit : 0 < limit.getD defaultLimit) :
    Paging CallbackRow (Nat ×ₗ Int) where
  key := CallbackRow.id
  ord := mineOrd
  post _ := true
  limit := limit.getD defaultLimit
  limit_pos := hlimit

def adminPaging (f : AdminFilters) (now : Int) (hlimit : 0 < f.limit.getD defaultLimit) :
    Paging CallbackRow Int where
  key := CallbackRow.id
  ord := CallbackRow.callbackAt
  post r := !f.staleOnly || stale now r
  limit := f.limit.getD defaultLimit
  limit_pos := hlimit

theorem filter_beforeCursor {β : Type*} (P : Paging CallbackRow β) (hkey : P.key = CallbackRow.id)
    (rows : List CallbackRow) (q : CallbackRow → Bool) (cursor : Option Int) :
    rows.filter (fun r => q r && beforeCursor cursor r) = P.fetch (rows.filter q) cursor := by
  cases cursor with
  | none =>
    apply List.filter_congr
    intro r _
    exact Bool.and_true _
  | some c =>
    simp only [Paging.fetch, hkey, List.filter_filter]
    apply List.filter_congr
    intro r _
    exact Bool.and_comm _ _

theorem listMineCallbacks_eq (table : CallbackTable) (actor : AuthContext) {limit : Option Nat}
    (hlimit : 0 < limit.getD defaultLimit) (orders : Nat → List CallbackRow → List CallbackRow) :
    (fun k cursor => listMineCallbacks (orders k) table actor cursor limit) =
      (minePaging limit hlimit).respond (table.rows.filter (mineWhere actor)) orders := by
  funext k cursor
  unfold listMineCallbacks Paging.respond Paging.page
  rw [filter_beforeCursor (minePaging limit hlimit) rfl]
  have hkeep : ∀ L : List CallbackRow, L.filter (minePaging limit hlimit).post = L :=
    fun L => List.filter_eq_self.2 fun _ _ => rfl
  rw [hkeep]
  rfl

theorem listCallbacksAdmin_eq (coll : String → String) (table : CallbackTable)
    (actor : AuthContext) {f : AdminFilters} (now : Int) (hlimit : 0 < f.limit.getD defaultLimit)
    (orders : Nat → List CallbackRow → List CallbackRow) :
    (fun k => listCallbacksAdmin coll (orders k) table actor f now) =
      (adminPaging f now hlimit).respond (table.rows.filter (adminWhere coll actor f)) orders := by
  funext k cursor
  unfold listCallbacksAdmin Paging.respond Paging.page
  rw [filter_beforeCursor (adminPaging f now hlimit) rfl]
  have hkeep : ∀ L : List CallbackRow, (if f.staleOnly then L.filter (stale now) else L) =
      L.filter (adminPaging f now hlimit).post := by
    intro L
    cases hstale : f.staleOnly with
    | false =>
      refine (List.filter_eq_self.2 fun r _ => ?_).symm
      simp [adminPaging, hstale]
    | true =>
      apply List.filter_congr
      intro r _
      simp [adminPaging, hstale]
  simp only [hkeep]
  rfl

/-- Both listings are exact on the tables whose matching rows stand in step with their
ids: the pages by due time are the pages by id. -/
theorem callback_paging_exact_iff (coll : String → String) (table : CallbackTable)
    (actor : AuthContext) (f : AdminFilters) (limit : Option Nat) (now : Int)
    (hlimit : 0 < limit.getD defaultLimit) (hflimit : 0 < f.limit.getD defaultLimit) :
    (MineExact table actor limit ↔
        (minePaging limit hlimit).InStep (table.rows.filter (mineWhere actor))) ∧
      (AdminExact coll table actor f now ↔
        (adminPaging f now hflimit).InStep (table.rows.filter (adminWhere coll actor f))) := by
  constructor
  · rw [← Paging.exact_iff (List.Pairwise.filter _ table.newest)]
    unfold MineExact Paging.Exact Paging.Completes
    simp only [listMineCallbacks_eq table actor hlimit, List.nil_append]
    have hkeep : (table.rows.filter (mineWhere actor)).filter (minePaging limit hlimit).post =
        table.rows.filter (mineWhere actor) := List.filter_eq_self.2 fun _ _ => rfl
    rw [hkeep]
    exact Iff.rfl
  · rw [← Paging.exact_iff (List.Pairwise.filter _ table.newest)]
    unfold AdminExact Paging.Exact Paging.Completes
    simp only [listCallbacksAdmin_eq coll table actor now hflimit, List.nil_append]
    have hkeep : (table.rows.filter (adminWhere coll actor f)).filter
        (adminPaging f now hflimit).post = table.rows.filter (adminMatches coll actor f now) := by
      rw [List.filter_filter]
      apply List.filter_congr
      intro r _
      exact Bool.and_comm _ _
    rw [hkeep]
    exact Iff.rfl

def pendingRow (id callbackAt : Int) : CallbackRow :=
  ⟨id, 1, "SALES", some 5, callbackAt, .pending⟩

/-- Two callbacks of agent 5. -/
def twoRows (first second : Int) : CallbackTable where
  rows := [pendingRow 2 second, pendingRow 1 first]
  newest := by
    rw [List.pairwise_pair]
    show (1 : Int) < 2
    decide

def agentFive : AuthContext := ⟨5, 1, .agent⟩

def noFilters (staleOnly : Bool) : AdminFilters :=
  ⟨none, none, none, none, none, none, staleOnly, some 1⟩

/-- The newer callback is due first. -/
theorem newer_first_listed_once :
    MineExact (twoRows 20 10) agentFive (some 1) ∧
      AdminExact id (twoRows 20 10) agentFive (noFilters false) 0 := by
  have hboth := callback_paging_exact_iff id (twoRows 20 10) agentFive (noFilters false) (some 1) 0
    (by decide) (by decide)
  constructor
  · apply hboth.1.2
    refine Paging.InStep.next (A := []) (b := pendingRow 2 10) (B := [pendingRow 1 20])
      rfl rfl (by decide) (by decide) (by decide) (by decide) (by decide) ?_
    exact Paging.InStep.last (by decide) (by decide)
  · apply hboth.2.2
    refine Paging.InStep.next (A := []) (b := pendingRow 2 10) (B := [pendingRow 1 20])
      rfl rfl (by decide) (by decide) (by decide) (by decide) (by decide) ?_
    exact Paging.InStep.last (by decide) (by decide)

/-- A stale callback that two pending ones come before. -/
def staleBehind : CallbackTable where
  rows := [⟨3, 1, "SALES", some 5, 30, .live⟩, pendingRow 2 20, pendingRow 1 10]
  newest := by decide

/-- The older callback is due first, and the second page starts below its id; and the
first fetch of stale callbacks has none, which ends the listing. -/
theorem later_callbacks_never_listed :
    ¬ MineExact (twoRows 10 20) agentFive (some 1) ∧
      ¬ AdminExact id staleBehind agentFive (noFilters true) 1000000000 := by
  constructor
  · intro h
    obtain ⟨fuel, out, hrun, hperm⟩ := h
      (fun _ W => W.insertionSort fun a b => mineOrd a ≤ mineOrd b)
      (fun _ W => Answer.insertionSort mineOrd W)
    have hlen := hperm.length_eq
    rcases fuel with _ | _ | fuel
    · cases hrun
    · cases hrun
    · cases hrun
      revert hlen
      decide
  · intro h
    obtain ⟨fuel, out, hrun, hperm⟩ := h
      (fun _ W => W.insertionSort fun a b => a.callbackAt ≤ b.callbackAt)
      (fun _ W => Answer.insertionSort CallbackRow.callbackAt W)
    have hlen := hperm.length_eq
    rcases fuel with _ | fuel
    · cases hrun
    · cases hrun
      revert hlen
      decide

end Callbacks

end Vici2
