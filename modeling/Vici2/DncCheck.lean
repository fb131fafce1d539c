import Mathlib.Logic.Function.Basic
import Vici2.DncTable

/-! The dialer's do-not-call check: a pipeline of Bloom lookups decides which
sources MySQL is asked to confirm. A source left out of that list is dialled
unseen, so each omission has to rest on a genuine negative. -/

namespace Vici2

namespace Dnc

/-- `^\+[1-9]\d{1,14}$` -/
def e164RE (s : String) : Bool :=
  match s.toList with
  | '+' :: d :: rest =>
    decide ('1' ≤ d) && decide (d ≤ '9') && rest.all Char.isDigit &&
      decide (1 ≤ rest.length) && decide (rest.length ≤ 14)
  | _ => false

def bloomKey (src : Source) (tenantID : Int) : String :=
  match src with
  | .federal => "bf:dnc:federal"
  | .litigator => "bf:dnc:litigator"
  | .internal => "t:" ++ toString tenantID ++ ":dnc:internal:bloom"
  | .state => "t:" ++ toString tenantID ++ ":dnc:state:bloom"
  | .other name => "bf:dnc:unknown:" ++ name

inductive Reply (V : Type*)
  | int (n : Int)
  | error
  | other (v : V)
  deriving DecidableEq, Repr

def Reply.isError {V : Type*} : Reply V → Bool
  | .error => true
  | _ => false

/-- The store and its client library: `reply i key phone` answers the `i`-th
command `BF.EXISTS key phone` of a pipeline, and `toInt` is what `Cmd.Int`
makes of a value that is not an integer (`none` for an error). -/
structure BloomClient (V : Type*) where
  reply : Nat → String → String → Reply V
  toInt : V → Option Int

variable {V : Type*}

def BloomClient.cmdInt (c : BloomClient V) : Reply V → Option Int
  | .int n => some n
  | .error => none
  | .other v => c.toInt v

structure CheckRequest where
  phoneE164 : String
  tenantID : Int
  campaignID : String
  leadState : String
  sources : List Source
  deriving DecidableEq, Repr

structure CheckResult where
  isDNC : Bool
  sources : List Source
  bloomFalsePositive : Bool
  reason : String
  deriving DecidableEq, Repr

def BloomClient.cmds (c : BloomClient V) (sources : List Source) (tenantID : Int)
    (phone : String) : List (Source × Reply V) :=
  sources.zipIdx.map fun x => (x.1, c.reply x.2 (bloomKey x.1 tenantID) phone)

def BloomClient.hit (c : BloomClient V) (execErr : Bool) (r : Reply V) : Bool :=
  execErr || r.isError || decide (c.cmdInt r = some 1)

/-- `bloomMexists`; `Exec` fails as soon as one command does. -/
def bloomMexists (c : BloomClient V) (sources : List Source) (tenantID : Int) (phone : String) :
    Source → Bool :=
  let cmds := c.cmds sources tenantID phone
  let execErr := cmds.any fun x => x.2.isError
  cmds.foldl (fun result x => Function.update result x.1 (c.hit execErr x.2)) fun _ => false

def positiveSources (c : BloomClient V) (req : CheckRequest) : List Source :=
  req.sources.filter (bloomMexists c req.sources req.tenantID req.phoneE164)

def confirmMySQL (coll : String → String) (db : Option (List DncRow)) (now : Int)
    (req : CheckRequest) (positiveSources : List Source) : Option (List Source) :=
  if positiveSources = [] then some []
  else
    let campaignID := if req.campaignID = "" then "__GLOBAL__" else req.campaignID
    let leadState := if req.leadState = "" then "__" else req.leadState
    db.map fun table => confirmedSources coll table now
      ⟨req.phoneE164, req.tenantID, campaignID, leadState⟩ positiveSources

def sortSources (sources : List Source) : List Source :=
  sources.mergeSort fun a b => decide (sourcePriority b ≤ sourcePriority a)

/-- `Checker.Check`; `db` is `none` where the query fails. -/
def check (coll : String → String) (c : BloomClient V) (db : Option (List DncRow)) (now : Int)
    (req : CheckRequest) : CheckResult :=
  if e164RE req.phoneE164 = false then ⟨true, [], false, "malformed"⟩
  else
    let positive := positiveSources c req
    if positive = [] then ⟨false, [], false, ""⟩
    else
      match confirmMySQL coll db now req positive with
      | none => ⟨true, positive, false, ""⟩
      | some confirmed =>
        if confirmed = [] then ⟨false, [], true, ""⟩
        else ⟨true, sortSources confirmed, false, ""⟩

def lastReplyFrom (s : Source) : Option (Reply V) → List (Source × Reply V) → Option (Reply V)
  | last, [] => last
  | last, x :: cmds => lastReplyFrom s (if x.1 = s then some x.2 else last) cmds

/-- The reply that settles a source: the one to its last command. -/
def lastReply (cmds : List (Source × Reply V)) (s : Source) : Option (Reply V) :=
  lastReplyFrom s none cmds

def BloomClient.replyFor (c : BloomClient V) (req : CheckRequest) (s : Source) :
    Option (Reply V) :=
  lastReply (c.cmds req.sources req.tenantID req.phoneE164) s

def ListedRow (coll : String → String) (now : Int) (req : CheckRequest) (r : DncRow) : Prop :=
  r.source ∈ req.sources ∧ r.live now = true ∧
    ConfirmArgs.covers coll ⟨req.phoneE164, req.tenantID,
      if req.campaignID = "" then "__GLOBAL__" else req.campaignID,
      if req.leadState = "" then "__" else req.leadState⟩ r = true

/-- A filter that answers 0 for a phone has no row of its source to hide. -/
def NoFalseNegatives (coll : String → String) (c : BloomClient V) (now : Int)
    (req : CheckRequest) (table : List DncRow) : Prop :=
  ∀ r ∈ table, ListedRow coll now req r → c.replyFor req r.source ≠ some (.int 0)

def FailClosed (coll : String → String) (c : BloomClient V) (req : CheckRequest) : Prop :=
  (e164RE req.phoneE164 = true → ∀ s ∈ req.sources, s ∉ positiveSources c req →
    c.replyFor req s = some (.int 0)) ∧
  ∀ now table, NoFalseNegatives coll c now req table →
    (∃ r ∈ table, ListedRow coll now req r) → (check coll c (some table) now req).isDNC = true

theorem foldl_update_eq_lastReplyFrom (f : Reply V → Bool) (cmds : List (Source × Reply V))
    (m : Source → Bool) (a : Option (Reply V)) (s : Source) (h : m s = (a.map f).getD false) :
    cmds.foldl (fun m x => Function.update m x.1 (f x.2)) m s =
      ((lastReplyFrom s a cmds).map f).getD false := by
  induction cmds generalizing m a with
  | nil => exact h
  | cons x cmds ih =>
    simp only [List.foldl_cons, lastReplyFrom]
    apply ih
    by_cases hx : x.1 = s
    · subst hx
      simp
    · have hs : s ≠ x.1 := fun he => hx he.symm
      rw [Function.update_of_ne hs, if_neg hx, h]

theorem lastReplyFrom_eq_none {cmds : List (Source × Reply V)} {a : Option (Reply V)} {s : Source}
    (h : lastReplyFrom s a cmds = none) : a = none ∧ s ∉ cmds.map Prod.fst := by
  induction cmds generalizing a with
  | nil => exact ⟨h, by simp⟩
  | cons x cmds ih =>
    obtain ⟨h1, h2⟩ := ih h
    by_cases hx : x.1 = s
    · simp [hx] at h1
    · rw [if_neg hx] at h1
      have hs : s ≠ x.1 := fun he => hx he.symm
      refine ⟨h1, ?_⟩
      simp only [List.map_cons, List.mem_cons, not_or]
      exact ⟨hs, h2⟩

theorem mem_of_lastReplyFrom {cmds : List (Source × Reply V)} {a : Option (Reply V)} {s : Source}
    {r : Reply V} (h : lastReplyFrom s a cmds = some r) : a = some r ∨ (s, r) ∈ cmds := by
  induction cmds generalizing a with
  | nil => exact Or.inl h
  | cons x cmds ih =>
    rcases ih h with hx | hx
    · by_cases hs : x.1 = s
      · rw [if_pos hs, Option.some.injEq] at hx
        right
        rw [← hs, ← hx]
        exact List.mem_cons_self
      · rw [if_neg hs] at hx
        exact Or.inl hx
    · exact Or.inr (List.mem_cons_of_mem _ hx)

theorem BloomClient.map_fst_cmds (c : BloomClient V) (sources : List Source) (tenantID : Int)
    (phone : String) : (c.cmds sources tenantID phone).map Prod.fst = sources := by
  unfold BloomClient.cmds
  rw [List.map_map]
  exact List.zipIdx_map_fst 0 sources

theorem BloomClient.replyFor_isSome {c : BloomClient V} {req : CheckRequest} {s : Source}
    (hs : s ∈ req.sources) : ∃ r, c.replyFor req s = some r := by
  cases hr : c.replyFor req s with
  | some r => exact ⟨r, rfl⟩
  | none =>
    have hn := (lastReplyFrom_eq_none hr).2
    rw [BloomClient.map_fst_cmds] at hn
    exact absurd hs hn

def BloomClient.execErr (c : BloomClient V) (req : CheckRequest) : Bool :=
  (c.cmds req.sources req.tenantID req.phoneE164).any fun x => x.2.isError

theorem BloomClient.execErr_of_reply {c : BloomClient V} {req : CheckRequest} {s : Source}
    {r : Reply V} (hr : c.replyFor req s = some r) (he : r.isError = true) :
    c.execErr req = true := by
  rcases mem_of_lastReplyFrom hr with h | h
  · simp at h
  · exact List.any_eq_true.2 ⟨(s, r), h, he⟩

theorem mem_positiveSources {c : BloomClient V} {req : CheckRequest} {s : Source} :
    s ∈ positiveSources c req ↔
      s ∈ req.sources ∧ ∃ r, c.replyFor req s = some r ∧ c.hit (c.execErr req) r = true := by
  have hfold := foldl_update_eq_lastReplyFrom (c.hit (c.execErr req))
    (c.cmds req.sources req.tenantID req.phoneE164) (fun _ => false) none s rfl
  have hmex : bloomMexists c req.sources req.tenantID req.phoneE164 s =
      ((c.replyFor req s).map (c.hit (c.execErr req))).getD false := hfold
  unfold positiveSources
  rw [List.mem_filter, hmex]
  apply and_congr_right
  intro hs
  obtain ⟨r, hr⟩ := BloomClient.replyFor_isSome (c := c) hs
  simp [hr]

theorem check_isDNC_of_positive {coll : String → String} {c : BloomClient V} {now : Int}
    {req : CheckRequest} {table : List DncRow} {r : DncRow} (hr : r ∈ table)
    (hl : ListedRow coll now req r) (hp : r.source ∈ positiveSources c req) :
    (check coll c (some table) now req).isDNC = true := by
  obtain ⟨-, hlive, hcov⟩ := hl
  have hne : positiveSources c req ≠ [] := List.ne_nil_of_mem hp
  have hconf := confirmedSources_ne_nil hr hcov hp hlive
  unfold check
  by_cases he : e164RE req.phoneE164 = false
  · simp [he]
  · simp [he, hne, confirmMySQL, hconf]

theorem check_isDNC_iff {coll : String → String} {c : BloomClient V} {now : Int}
    {req : CheckRequest} {table : List DncRow} :
    (check coll c (some table) now req).isDNC = true ↔ e164RE req.phoneE164 = false ∨
      ∃ r ∈ table, ListedRow coll now req r ∧ r.source ∈ positiveSources c req := by
  by_cases he : e164RE req.phoneE164 = false
  · simp [check, he]
  constructor
  · intro h
    right
    by_contra hnone
    have hconf : confirmMySQL coll (some table) now req (positiveSources c req) = some [] := by
      by_cases hnil : positiveSources c req = []
      · simp [confirmMySQL, hnil]
      · simp only [confirmMySQL, if_neg hnil, Option.map_some, Option.some.injEq]
        refine List.eq_nil_iff_forall_not_mem.2 fun s hs => ?_
        obtain ⟨r, hr, rfl, hcov, hpos, hlive⟩ := mem_confirmedSources hs
        have hreq : r.source ∈ req.sources := (mem_positiveSources.1 hpos).1
        exact hnone ⟨r, hr, ⟨hreq, hlive, hcov⟩, hpos⟩
    by_cases hnil : positiveSources c req = []
    · simp [check, he, hnil] at h
    · simp [check, he, hnil, hconf] at h
  · rintro (hm | ⟨r, hr, hl, hp⟩)
    · exact absurd hm he
    · exact check_isDNC_of_positive hr hl hp

/-- Every omission rests on a genuine negative, and no listed phone is reported
clean, exactly when the phone is malformed, or a command of the pipeline
fails, or each source's reply is the integer 0 or is read as 1. -/
theorem failClosed_iff (coll : String → String) (c : BloomClient V) (req : CheckRequest) :
    FailClosed coll c req ↔
      e164RE req.phoneE164 = false ∨ c.execErr req = true ∨
        ∀ s ∈ req.sources, ∀ r, c.replyFor req s = some r → r = .int 0 ∨ c.cmdInt r = some 1 := by
  constructor
  · intro h
    by_cases he : e164RE req.phoneE164 = false
    · exact Or.inl he
    · right
      by_cases hx : c.execErr req = true
      · exact Or.inl hx
      · right
        intro s hs r hr
        by_cases hp : s ∈ positiveSources c req
        · obtain ⟨-, r', hr', hhit⟩ := mem_positiveSources.1 hp
          rw [hr, Option.some.injEq] at hr'
          subst hr'
          have hnoerr : r.isError = false := by
            by_contra herr
            exact hx (BloomClient.execErr_of_reply hr (by simpa using herr))
          simp [BloomClient.hit, hx, hnoerr] at hhit
          exact Or.inr hhit
        · have h0 := h.1 (by simpa using he) s hs hp
          rw [hr, Option.some.injEq] at h0
          exact Or.inl h0
  · intro h
    have hfirst : e164RE req.phoneE164 = true → ∀ s ∈ req.sources, s ∉ positiveSources c req →
        c.replyFor req s = some (.int 0) := by
      intro he s hs hp
      obtain ⟨r, hr⟩ := BloomClient.replyFor_isSome (c := c) hs
      have hnot : ¬ c.hit (c.execErr req) r = true := fun hh =>
        hp (mem_positiveSources.2 ⟨hs, r, hr, hh⟩)
      rcases h with hm | hx | hall
      · simp [he] at hm
      · simp [BloomClient.hit, hx] at hnot
      · rcases hall s hs r hr with h0 | h1
        · rw [hr, h0]
        · simp [BloomClient.hit, h1] at hnot
    refine ⟨hfirst, ?_⟩
    intro now table hnf hrow
    obtain ⟨r, hr, hl⟩ := hrow
    by_cases he : e164RE req.phoneE164 = true
    · apply check_isDNC_of_positive hr hl
      by_contra hp
      exact hnf r hr hl (hfirst he r.source hl.1 hp)
    · unfold check
      simp [he]

/-- A client that speaks the protocol in which `BF.EXISTS` answers a boolean,
which `Cmd.Int` refuses. -/
def booleanClient : BloomClient Bool := ⟨fun _ _ _ => .other true, fun _ => none⟩

def listedRequest : CheckRequest := ⟨"+14155551212", 1, "", "", [.federal, .internal]⟩

theorem failClosed_boolean_reply :
    ¬ FailClosed id booleanClient listedRequest ∧
      ListedRow id 0 listedRequest ⟨0, "+14155551212", .federal, "__", "__GLOBAL__", none⟩ ∧
      (check id booleanClient (some [⟨0, "+14155551212", .federal, "__", "__GLOBAL__", none⟩]) 0
        listedRequest).isDNC = false := by
  refine ⟨?_, by unfold ListedRow; decide, by decide⟩
  intro h
  have h0 := h.1 (by decide) .federal (by decide) (by decide)
  revert h0
  decide

end Dnc

end Vici2
