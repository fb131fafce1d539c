import Mathlib.Data.List.Nodup
import Vici2.JsDate
import Vici2.Runs

/-! The writer of the recording log: entries of the stream of stopped recordings are read
in batches, each is written to the table in a few attempts and dead-lettered after them. A
consumer group hands out every entry once, so that an entry dropped in between is not seen
again. -/

namespace Vici2

namespace RecordingLog

open IsoTime JsDate

/-- The event of a stopped recording. Its fields are what JSON holds there. -/
structure Event (ν : Type) where
  eventId : ν
  uuid : ν
  tenantId : ν
  campaignId : ν
  leadId : ν
  userId : ν
  filename : ν
  durationMs : ν
  sampleRate : ν
  channels : ν
  startedAtNs : ν
  endedAtNs : ν
  fsHost : ν
  consentStatus : ν
  lifecycleState : ν
  failureReason : ν
  deriving DecidableEq, Repr

/-- JavaScript values: `JSON.parse`, without a result where it throws or where the value
is null and reading its `uuid` throws, `Number` of a text, the tests behind `||` and `??`,
`Math.round(x / 1000)`, and the time value of `new Date(x / 1_000_000)`, without one where
`toISOString` throws. -/
structure Js (ν : Type) where
  jsonParse : String → Option (Event ν)
  number : String → ν
  text : String → ν
  undefined : ν
  null : ν
  falsy : ν → Bool
  nullish : ν → Bool
  seconds : ν → ν
  epochMs : ν → Option Int

/-- A row of `recording_log`, its start in the text of `DATETIME(6)`. -/
structure Row (ν : Type) where
  tenantId : ν
  uuid : ν
  campaignId : ν
  leadId : ν
  userId : ν
  filename : ν
  byteSize : ν
  durationSec : ν
  startTime : List Char
  consentStatus : ν
  deriving DecidableEq, Repr

def Row.key {ν : Type} (row : Row ν) : ν × List Char := (row.uuid, row.startTime)

def maxRetries : Nat := 5

def pairs : List String → List (String × String)
  | name :: value :: rest => (name, value) :: pairs rest
  | _ => []

def field (rawFields : List String) (name : String) : Option String :=
  ((pairs rawFields).filter fun p => p.1 == name).getLast?.map Prod.snd

/-- `toISOString` with a blank for its `T` and without its `Z`. -/
def mysqlText (ms : Int) : List Char :=
  let y := year ms
  let day :=
    if 0 ≤ y ∧ y ≤ 9999 then dateText (ms / msPerDay)
    else (if y < 0 then '-' else '+') :: fixedDigits 6 y.natAbs ++ '-' ::
      fixedDigits 2 (month ms + 1).toNat ++ '-' :: fixedDigits 2 (date ms).toNat
  day ++ ' ' :: (millisText ms).drop 11

section

variable {ν : Type} (J : Js ν)

def parseFields (rawFields : List String) : Option (Event ν) :=
  let f := field rawFields
  let fallback : Event ν :=
    { eventId := J.text ((f "event_id").getD "")
      uuid := J.text ((f "uuid").getD "")
      tenantId := J.number ((f "tenant_id").getD "1")
      campaignId := J.text ((f "campaign_id").getD "")
      leadId := J.number ((f "lead_id").getD "0")
      userId := J.number ((f "user_id").getD "0")
      filename := J.text ((f "filename").getD "")
      durationMs := J.number ((f "duration_ms").getD "0")
      sampleRate := J.number ((f "sample_rate").getD "8000")
      channels := J.number ((f "channels").getD "2")
      startedAtNs := J.number ((f "started_at_ns").getD "0")
      endedAtNs := J.number ((f "ended_at_ns").getD "0")
      fsHost := J.text ((f "fs_host").getD "")
      consentStatus := ((f "consent_status").map J.text).getD J.undefined
      lifecycleState := ((f "lifecycle_state").map J.text).getD J.undefined
      failureReason := ((f "failure_reason").map J.text).getD J.undefined }
  match f "payload" with
  | none => some fallback
  | some payload => if payload = "" then some fallback else J.jsonParse payload

def nsToMysqlDatetime (now : Int) (ns : ν) : Option (List Char) :=
  if J.falsy ns = true then some (mysqlText now) else (J.epochMs ns).map mysqlText

/-- The parameters of the insert; without them it throws before it is sent. -/
def writeRecordingLog (now : Int) (byteSize : ν) (ev : Event ν) : Option (Row ν) :=
  (nsToMysqlDatetime J now ev.startedAtNs).map fun startedAt =>
    { tenantId := ev.tenantId
      uuid := ev.uuid
      campaignId := ev.campaignId
      leadId := if J.falsy ev.leadId = true then J.null else ev.leadId
      userId := if J.falsy ev.userId = true then J.null else ev.userId
      filename := ev.filename
      byteSize := byteSize
      durationSec := J.seconds ev.durationMs
      startTime := startedAt
      consentStatus :=
        if J.nullish ev.consentStatus = true then J.text "not_required" else ev.consentStatus }

end

/-- A command is done and answered, not done, or done without an answer. -/
inductive Outcome
  | ok
  | failed
  | unanswered
  deriving DecidableEq, Repr

/-- The entry in work and the attempt that is next. -/
structure Work (ν : Type) where
  entry : Nat
  event : Event ν
  attempt : Nat

/-- The writer in front of its stream and table. Entries are counted as they come;
`wrote` has the keys under which the inserts for an entry took effect. -/
structure Writer (ν : Type) where
  now : Int
  cursor : Nat
  batch : List Nat
  work : Option (Work ν)
  table : List (Row ν)
  wrote : List (Nat × (ν × List Char))
  dlq : List Nat
  acked : List Nat

def Writer.start {ν : Type} (now : Int) : Writer ν := ⟨now, 0, [], none, [], [], [], []⟩

/-- `begin` takes up the next entry of the batch. A restart can come at any time: what is
in memory is gone then. -/
inductive Action (ν : Type)
  | read (n : Nat)
  | begin
  | attempt (byteSize : ν) (insert : Outcome) (xack : Bool)
  | deadLetter (xadd : Outcome) (xack : Bool)
  | restart
  | tick (ms : Nat)
  deriving DecidableEq, Repr

section

variable {ν : Type} [DecidableEq ν] (J : Js ν) (stream : Nat → List String)

/-- `INSERT ... ON DUPLICATE KEY UPDATE updated_at = updated_at` -/
def Writer.insert (w : Writer ν) (entry : Nat) (row : Row ν) : Writer ν :=
  { w with
    table := if row.key ∈ w.table.map Row.key then w.table else w.table ++ [row]
    wrote := w.wrote ++ [(entry, row.key)] }

def Writer.abandon (w : Writer ν) : Writer ν := { w with batch := [], work := none }

def Writer.retry (w : Writer ν) (k : Work ν) : Writer ν :=
  { w with work := some { k with attempt := k.attempt + 1 } }

/-- One round of the loop in `processEntry`. -/
def Writer.attempt (w : Writer ν) (k : Work ν) (byteSize : ν) (insert : Outcome) (xack : Bool) :
    Writer ν :=
  match writeRecordingLog J w.now byteSize k.event with
  | none => w.retry k
  | some row =>
    match insert with
    | .failed => w.retry k
    | .unanswered => (w.insert k.entry row).retry k
    | .ok =>
      let w := w.insert k.entry row
      if xack = true then { w with work := none, acked := w.acked ++ [k.entry] } else w.retry k

/-- The end of `processEntry`: the last acknowledgement is not caught there. -/
def Writer.deadLetter (w : Writer ν) (k : Work ν) (xadd : Outcome) (xack : Bool) : Writer ν :=
  let w := if xadd = .failed then w else { w with dlq := w.dlq ++ [k.entry] }
  if xack = true then { w with work := none, acked := w.acked ++ [k.entry] } else w.abandon

section

variable (w : Writer ν) (k : Work ν) (xadd : Outcome) (xack : Bool)

omit [DecidableEq ν]

@[simp]
theorem Writer.deadLetter_cursor : (w.deadLetter k xadd xack).cursor = w.cursor := by
  cases xadd <;> cases xack <;> rfl

@[simp]
theorem Writer.deadLetter_work : (w.deadLetter k xadd xack).work = none := by
  cases xadd <;> cases xack <;> rfl

@[simp]
theorem Writer.deadLetter_batch :
    (w.deadLetter k xadd xack).batch = if xack = true then w.batch else [] := by
  cases xadd <;> cases xack <;> rfl

@[simp]
theorem Writer.deadLetter_table : (w.deadLetter k xadd xack).table = w.table := by
  cases xadd <;> cases xack <;> rfl

@[simp]
theorem Writer.deadLetter_wrote : (w.deadLetter k xadd xack).wrote = w.wrote := by
  cases xadd <;> cases xack <;> rfl

@[simp]
theorem Writer.deadLetter_dlq : (w.deadLetter k xadd xack).dlq =
    if xadd = .failed then w.dlq else w.dlq ++ [k.entry] := by
  cases xadd <;> cases xack <;> rfl

end

def step (w : Writer ν) : Action ν → Writer ν
  | .read n =>
    if w.batch = [] ∧ w.work.isNone = true ∧ 1 ≤ n ∧ n ≤ 10 then
      { w with cursor := w.cursor + n, batch := List.range' w.cursor n }
    else w
  | .begin =>
    match w.work, w.batch with
    | none, i :: rest =>
      match parseFields J (stream i) with
      | none => w.abandon
      | some event => { w with batch := rest, work := some ⟨i, event, 1⟩ }
    | _, _ => w
  | .attempt byteSize insert xack =>
    match w.work with
    | some k => if k.attempt ≤ maxRetries then w.attempt J k byteSize insert xack else w
    | none => w
  | .deadLetter xadd xack =>
    match w.work with
    | some k => if k.attempt ≤ maxRetries then w else w.deadLetter k xadd xack
    | none => w
  | .restart => w.abandon
  | .tick ms => { w with now := w.now + ms }

end

section

variable {ν : Type}

def Writer.InHand (w : Writer ν) (i : Nat) : Prop := i ∈ w.batch ∨ ∃ k ∈ w.work, k.entry = i

def Writer.HasRow (w : Writer ν) (i : Nat) : Prop := ∃ row ∈ w.table, (i, row.key) ∈ w.wrote

/-- Every entry that has been read and is out of the writer's hands has its row or its
dead letter. -/
def NoneLost (w : Writer ν) : Prop :=
  ∀ i < w.cursor, w.InHand i ∨ w.HasRow i ∨ i ∈ w.dlq

def NoneDoubled (w : Writer ν) : Prop :=
  ∀ i, ∀ row ∈ w.table, ∀ row' ∈ w.table, (i, row.key) ∈ w.wrote → (i, row'.key) ∈ w.wrote →
    row = row'

def Sound (w : Writer ν) : Prop := NoneLost w ∧ NoneDoubled w

/-- The payload of an entry that is taken up can be read; an insert that takes effect has
the key of the entry's earlier ones; a dead letter is added, or its entry has a row, and
nothing else of the batch is left unless the last acknowledgement succeeds; a restart finds
nothing of the batch left, and the entry in work with its row. -/
def Safe (J : Js ν) (stream : Nat → List String) (w : Writer ν) : Action ν → Prop
  | .read _ => True
  | .begin => ∀ i ∈ w.batch.head?, w.work.isNone = true → (parseFields J (stream i)).isSome = true
  | .attempt byteSize insert _ => ∀ k ∈ w.work, k.attempt ≤ maxRetries → insert ≠ .failed →
      ∀ row ∈ writeRecordingLog J w.now byteSize k.event, ∀ key, (k.entry, key) ∈ w.wrote →
        key = row.key
  | .deadLetter xadd xack => ∀ k ∈ w.work, ¬ k.attempt ≤ maxRetries →
      (xadd ≠ .failed ∨ w.HasRow k.entry) ∧ (xack = true ∨ w.batch = [])
  | .restart => w.batch = [] ∧ ∀ k ∈ w.work, w.HasRow k.entry
  | .tick _ => True

/-- An entry of the batch has not been written or dead-lettered yet; an entry is in hand
once; the table has one row under each key that was written. -/
structure Inv (w : Writer ν) : Prop where
  fresh : ∀ i ∈ w.batch, (∀ key, (i, key) ∉ w.wrote) ∧ i ∉ w.dlq
  nodup : w.batch.Nodup
  below : ∀ i ∈ w.batch, i < w.cursor
  workFresh : ∀ k ∈ w.work, k.entry ∉ w.batch ∧ k.entry ∉ w.dlq ∧ k.entry < w.cursor
  wroteBelow : ∀ p ∈ w.wrote, p.1 < w.cursor
  dlqBelow : ∀ i ∈ w.dlq, i < w.cursor
  wroteTable : ∀ p ∈ w.wrote, p.2 ∈ w.table.map Row.key
  keys : (w.table.map Row.key).Nodup

theorem Inv.start (now : Int) : Inv (Writer.start now : Writer ν) := by
  constructor <;> simp [Writer.start]

theorem Inv.hasRow_iff {w : Writer ν} (h : Inv w) (i : Nat) :
    w.HasRow i ↔ ∃ key, (i, key) ∈ w.wrote := by
  constructor
  · rintro ⟨row, -, hwrote⟩
    exact ⟨row.key, hwrote⟩
  · rintro ⟨key, hwrote⟩
    obtain ⟨row, hrow, hkey⟩ := List.mem_map.1 (h.wroteTable _ hwrote)
    exact ⟨row, hrow, by rw [hkey]; exact hwrote⟩

theorem Inv.noneDoubled_iff {w : Writer ν} (h : Inv w) :
    NoneDoubled w ↔ ∀ i key key', (i, key) ∈ w.wrote → (i, key') ∈ w.wrote → key = key' := by
  constructor
  · intro hone i key key' hkey hkey'
    obtain ⟨row, hrow, heq⟩ := List.mem_map.1 (h.wroteTable _ hkey)
    obtain ⟨row', hrow', heq'⟩ := List.mem_map.1 (h.wroteTable _ hkey')
    dsimp only at heq heq'
    subst heq heq'
    rw [hone i row hrow row' hrow' hkey hkey']
  · intro hone i row hrow row' hrow' hkey hkey'
    exact List.inj_on_of_nodup_map h.keys hrow hrow' (hone i _ _ hkey hkey')

theorem Inv.abandon {w : Writer ν} (h : Inv w) : Inv w.abandon := by
  refine ⟨?_, ?_, ?_, ?_, h.wroteBelow, h.dlqBelow, h.wroteTable, h.keys⟩ <;>
    simp [Writer.abandon]

theorem Inv.done {w : Writer ν} (h : Inv w) (acked : List Nat) :
    Inv { w with work := none, acked := acked } := by
  refine ⟨h.fresh, h.nodup, h.below, ?_, h.wroteBelow, h.dlqBelow, h.wroteTable, h.keys⟩
  simp

theorem Inv.retry {w : Writer ν} (h : Inv w) {k : Work ν} (hk : k ∈ w.work) : Inv (w.retry k) := by
  refine ⟨h.fresh, h.nodup, h.below, ?_, h.wroteBelow, h.dlqBelow, h.wroteTable, h.keys⟩
  intro k' hk'
  have heq : k' = { k with attempt := k.attempt + 1 } := by
    simpa [Writer.retry] using hk'.symm
  rw [heq]
  exact h.workFresh k hk

theorem Inv.insert [DecidableEq ν] {w : Writer ν} (h : Inv w) {k : Work ν} (hk : k ∈ w.work)
    (row : Row ν) : Inv (w.insert k.entry row) := by
  obtain ⟨hbatch, hdlq, hbelow⟩ := h.workFresh k hk
  refine ⟨?_, h.nodup, h.below, h.workFresh, ?_, h.dlqBelow, ?_, ?_⟩
  · intro i hi
    refine ⟨?_, (h.fresh i hi).2⟩
    intro key hkey
    rcases List.mem_append.1 hkey with hkey | hkey
    · exact (h.fresh i hi).1 key hkey
    · have heq : i = k.entry := (Prod.mk.inj (List.mem_singleton.1 hkey)).1
      exact hbatch (heq ▸ hi)
  · intro p hp
    rcases List.mem_append.1 hp with hp | hp
    · exact h.wroteBelow p hp
    · rw [List.mem_singleton.1 hp]
      exact hbelow
  · intro p hp
    have htable : ∀ key, key ∈ w.table.map Row.key ∨ key = row.key →
        key ∈ (w.insert k.entry row).table.map Row.key := by
      intro key hkey
      by_cases hin : row.key ∈ w.table.map Row.key
      · rw [Writer.insert, if_pos hin]
        exact hkey.elim id fun heq => heq ▸ hin
      · rw [Writer.insert, if_neg hin, List.map_append]
        exact hkey.elim (List.mem_append_left _) fun heq => by simp [heq]
    rcases List.mem_append.1 hp with hp | hp
    · exact htable _ (.inl (h.wroteTable p hp))
    · rw [List.mem_singleton.1 hp]
      exact htable _ (.inr rfl)
  · by_cases hin : row.key ∈ w.table.map Row.key
    · rw [Writer.insert, if_pos hin]
      exact h.keys
    · rw [Writer.insert, if_neg hin, List.map_append]
      refine List.nodup_append.2 ⟨h.keys, by simp, ?_⟩
      intro key hkey key' hkey' heq
      rw [List.map_singleton, List.mem_singleton] at hkey'
      exact hin (hkey' ▸ heq ▸ hkey)

theorem Inv.deadLetter {w : Writer ν} (h : Inv w) {k : Work ν} (hk : k ∈ w.work) (xadd : Outcome)
    (xack : Bool) : Inv (w.deadLetter k xadd xack) := by
  obtain ⟨hbatch, hdlq, hbelow⟩ := h.workFresh k hk
  have hkept : ∀ i ∈ (w.deadLetter k xadd xack).batch, i ∈ w.batch := by
    cases xack <;> simp
  have hletter : ∀ i ∈ (w.deadLetter k xadd xack).dlq, i ∈ w.dlq ∨ i = k.entry := by
    intro i
    by_cases hx : xadd = .failed <;> simp +contextual [hx]
  refine ⟨?_, ?_, ?_, by simp, by simpa using h.wroteBelow, ?_, by simpa using h.wroteTable,
    by simpa using h.keys⟩
  · intro i hi
    refine ⟨by simpa using (h.fresh i (hkept i hi)).1, ?_⟩
    intro hmem
    rcases hletter i hmem with hmem | heq
    · exact (h.fresh i (hkept i hi)).2 hmem
    · exact hbatch (heq ▸ hkept i hi)
  · cases xack <;> simp [h.nodup]
  · intro i hi
    simpa using h.below i (hkept i hi)
  · intro i hi
    rw [Writer.deadLetter_cursor]
    rcases hletter i hi with hi | heq
    · exact h.dlqBelow i hi
    · exact heq ▸ hbelow

/-- The writer lets go of the entry in work, and of the batch too unless it keeps it. -/
theorem noneLost_drop_iff {w : Writer ν} (h : Inv w) (hlost : NoneLost w) (w' : Writer ν)
    (letter keep : Prop) [Decidable keep] (hcursor : w'.cursor = w.cursor) (hwork : w'.work = none)
    (hbatch : w'.batch = if keep then w.batch else []) (hrow : ∀ i, w'.HasRow i ↔ w.HasRow i)
    (hdlq : ∀ i, i ∈ w'.dlq ↔ i ∈ w.dlq ∨ letter ∧ ∃ k ∈ w.work, k.entry = i) :
    NoneLost w' ↔ (∀ k ∈ w.work, letter ∨ w.HasRow k.entry) ∧ (keep ∨ w.batch = []) := by
  have hhand : ∀ i, w'.InHand i ↔ keep ∧ i ∈ w.batch := by
    intro i
    rw [Writer.InHand, hwork, hbatch]
    by_cases hkeep : keep <;> simp [hkeep]
  constructor
  · intro hlost'
    constructor
    · intro k hk
      obtain ⟨hnotBatch, hnotDlq, hlt⟩ := h.workFresh k hk
      rcases hlost' k.entry (hcursor ▸ hlt) with hin | hin | hin
      · exact absurd ((hhand k.entry).1 hin).2 hnotBatch
      · exact .inr ((hrow k.entry).1 hin)
      · rcases (hdlq k.entry).1 hin with hin | hin
        · exact absurd hin hnotDlq
        · exact .inl hin.1
    · by_contra hnone
      obtain ⟨hkeep, hne⟩ := not_or.1 hnone
      obtain ⟨i, hi⟩ := List.exists_mem_of_ne_nil _ hne
      obtain ⟨hwrote, hnotDlq⟩ := h.fresh i hi
      rcases hlost' i (hcursor ▸ h.below i hi) with hin | hin | hin
      · exact hkeep ((hhand i).1 hin).1
      · obtain ⟨key, hkey⟩ := (h.hasRow_iff i).1 ((hrow i).1 hin)
        exact hwrote key hkey
      · rcases (hdlq i).1 hin with hin | ⟨-, k, hk, heq⟩
        · exact hnotDlq hin
        · exact (h.workFresh k hk).1 (heq ▸ hi)
  · rintro ⟨hent, hkept⟩ i hi
    rcases hlost i (hcursor ▸ hi) with (hin | ⟨k, hk, heq⟩) | hin | hin
    · rcases hkept with hkeep | hnil
      · exact .inl ((hhand i).2 ⟨hkeep, hin⟩)
      · rw [hnil] at hin
        exact absurd hin List.not_mem_nil
    · rcases hent k hk with hletter | hin
      · exact .inr (.inr ((hdlq i).2 (.inr ⟨hletter, k, hk, heq⟩)))
      · exact .inr (.inl ((hrow i).2 (heq ▸ hin)))
    · exact .inr (.inl ((hrow i).2 hin))
    · exact .inr (.inr ((hdlq i).2 (.inl hin)))

theorem noneLost_abandon_iff {w : Writer ν} (h : Inv w) (hlost : NoneLost w) :
    NoneLost w.abandon ↔ (∀ k ∈ w.work, w.HasRow k.entry) ∧ w.batch = [] := by
  have hiff := noneLost_drop_iff h hlost w.abandon False False rfl rfl
    (by simp [Writer.abandon]) (fun i => Iff.rfl) (by simp [Writer.abandon])
  simpa using hiff

theorem noneLost_deadLetter_iff {w : Writer ν} (h : Inv w) (hlost : NoneLost w) {k : Work ν}
    (hk : k ∈ w.work) (xadd : Outcome) (xack : Bool) :
    NoneLost (w.deadLetter k xadd xack) ↔
      (xadd ≠ .failed ∨ w.HasRow k.entry) ∧ (xack = true ∨ w.batch = []) := by
  have hone : ∀ k', k' ∈ w.work ↔ k = k' := by
    intro k'
    rw [Option.mem_def.1 hk, Option.mem_some_iff]
  have hdlq : ∀ i, i ∈ (w.deadLetter k xadd xack).dlq ↔
      i ∈ w.dlq ∨ xadd ≠ .failed ∧ ∃ k' ∈ w.work, k'.entry = i := by
    intro i
    by_cases hx : xadd = .failed <;> simp [hx, hone, eq_comm]
  have hiff := noneLost_drop_iff h hlost (w.deadLetter k xadd xack) (xadd ≠ .failed) (xack = true)
    (by simp) (by simp) (by simp) (by simp [Writer.HasRow]) hdlq
  rw [hiff]
  simp [hone]

section Steps

variable [DecidableEq ν] {J : Js ν} {stream : Nat → List String} {w : Writer ν}

theorem Inv.attempt (h : Inv w) {k : Work ν} (hk : k ∈ w.work) (byteSize : ν) (insert : Outcome)
    (xack : Bool) : Inv (w.attempt J k byteSize insert xack) := by
  rw [Writer.attempt]
  cases writeRecordingLog J w.now byteSize k.event with
  | none => exact h.retry hk
  | some row =>
    have hins := h.insert hk row
    cases insert with
    | failed => exact h.retry hk
    | unanswered => exact hins.retry hk
    | ok =>
      cases xack with
      | true => exact hins.done _
      | false => exact hins.retry hk

theorem Inv.read (h : Inv w) (n : Nat) : Inv (step J stream w (.read n)) := by
  rw [RecordingLog.step]
  split
  · next hguard =>
    refine ⟨?_, List.nodup_range', ?_, ?_, ?_, ?_, h.wroteTable, h.keys⟩
    · intro i hi
      have hge : w.cursor ≤ i := (List.mem_range'_1.1 hi).1
      refine ⟨fun key hkey => ?_, fun hmem => ?_⟩
      · have hlt : i < w.cursor := h.wroteBelow _ hkey
        omega
      · have hlt : i < w.cursor := h.dlqBelow i hmem
        omega
    · intro i hi
      exact (List.mem_range'_1.1 hi).2
    · intro k hk
      simp [Option.isNone_iff_eq_none.1 hguard.2.1] at hk
    · intro p hp
      exact Nat.lt_add_right n (h.wroteBelow p hp)
    · intro i hi
      exact Nat.lt_add_right n (h.dlqBelow i hi)
  · exact h

theorem step_begin_of_work {k : Work ν} (hwork : w.work = some k) :
    step J stream w .begin = w := by
  simp [step, hwork]

theorem step_begin_of_nil (hbatch : w.batch = []) : step J stream w .begin = w := by
  cases hwork : w.work <;> simp [step, hwork, hbatch]

theorem step_begin_of_cons {i : Nat} {rest : List Nat} (hwork : w.work = none)
    (hbatch : w.batch = i :: rest) : step J stream w .begin =
      match parseFields J (stream i) with
      | none => w.abandon
      | some event => { w with batch := rest, work := some ⟨i, event, 1⟩ } := by
  simp [step, hwork, hbatch]

theorem Inv.begin (h : Inv w) : Inv (step J stream w .begin) := by
  cases hwork : w.work with
  | some k => rwa [step_begin_of_work hwork]
  | none =>
    cases hbatch : w.batch with
    | nil => rwa [step_begin_of_nil hbatch]
    | cons i rest =>
      rw [step_begin_of_cons hwork hbatch]
      cases parseFields J (stream i) with
      | none => exact h.abandon
      | some event =>
        have hnodup := h.nodup
        have hfresh := h.fresh
        have hbelow := h.below
        rw [hbatch] at hnodup hfresh hbelow
        obtain ⟨hi, hrest⟩ := List.nodup_cons.1 hnodup
        refine ⟨?_, hrest, ?_, ?_, h.wroteBelow, h.dlqBelow, h.wroteTable, h.keys⟩
        · exact fun j hj => hfresh j (List.mem_cons_of_mem _ hj)
        · exact fun j hj => hbelow j (List.mem_cons_of_mem _ hj)
        · intro k hk
          have heq : k = ⟨i, event, 1⟩ := by simpa using hk.symm
          rw [heq]
          exact ⟨hi, (hfresh i List.mem_cons_self).2, hbelow i List.mem_cons_self⟩

theorem Inv.step (h : Inv w) (a : Action ν) : Inv (step J stream w a) := by
  cases a with
  | read n => exact h.read n
  | begin => exact h.begin
  | attempt byteSize insert xack =>
    cases hwork : w.work with
    | none => simpa [RecordingLog.step, hwork] using h
    | some k =>
      simp only [RecordingLog.step, hwork]
      split
      · exact h.attempt hwork byteSize insert xack
      · exact h
  | deadLetter xadd xack =>
    cases hwork : w.work with
    | none => simpa [RecordingLog.step, hwork] using h
    | some k =>
      simp only [RecordingLog.step, hwork]
      split
      · exact h
      · exact h.deadLetter hwork xadd xack
  | restart => exact h.abandon
  | tick ms =>
    exact ⟨h.fresh, h.nodup, h.below, h.workFresh, h.wroteBelow, h.dlqBelow, h.wroteTable, h.keys⟩

theorem hasRow_insert_of_hasRow (h : Inv w) {k : Work ν} (hk : k ∈ w.work) (row : Row ν) {i : Nat}
    (hi : w.HasRow i) : (w.insert k.entry row).HasRow i := by
  obtain ⟨key, hkey⟩ := (h.hasRow_iff i).1 hi
  exact ((h.insert hk row).hasRow_iff i).2 ⟨key, List.mem_append_left _ hkey⟩

theorem hasRow_insert (h : Inv w) {k : Work ν} (hk : k ∈ w.work) (row : Row ν) :
    (w.insert k.entry row).HasRow k.entry :=
  ((h.insert hk row).hasRow_iff k.entry).2 ⟨row.key, by simp [Writer.insert]⟩

omit [DecidableEq ν] in
theorem noneLost_retry (hlost : NoneLost w) {k : Work ν} (hk : k ∈ w.work) :
    NoneLost (w.retry k) := by
  intro i hi
  rcases hlost i hi with (hin | ⟨k', hk', heq⟩) | hin
  · exact .inl (.inl hin)
  · have hsame : k = k' := by simpa [Option.mem_def.1 hk] using hk'
    exact .inl (.inr ⟨_, rfl, by rw [← heq, ← hsame]⟩)
  · exact .inr hin

theorem noneLost_insert (h : Inv w) (hlost : NoneLost w) {k : Work ν} (hk : k ∈ w.work)
    (row : Row ν) : NoneLost (w.insert k.entry row) := by
  intro i hi
  rcases hlost i hi with hin | hin | hin
  · exact .inl hin
  · exact .inr (.inl (hasRow_insert_of_hasRow h hk row hin))
  · exact .inr (.inr hin)

theorem noneLost_attempt (h : Inv w) (hlost : NoneLost w) {k : Work ν} (hk : k ∈ w.work)
    (byteSize : ν) (insert : Outcome) (xack : Bool) :
    NoneLost (w.attempt J k byteSize insert xack) := by
  rw [Writer.attempt]
  cases writeRecordingLog J w.now byteSize k.event with
  | none => exact noneLost_retry hlost hk
  | some row =>
    have hins := noneLost_insert h hlost hk row
    cases insert with
    | failed => exact noneLost_retry hlost hk
    | unanswered => exact noneLost_retry hins hk
    | ok =>
      cases xack with
      | false => exact noneLost_retry hins hk
      | true =>
        intro i hi
        rcases hins i hi with (hin | ⟨k', hk', heq⟩) | hin
        · exact .inl (.inl hin)
        · have hsame : k = k' := by
            have hwork : (w.insert k.entry row).work = some k := hk
            simpa [hwork] using hk'
          exact .inr (.inl (heq ▸ hsame ▸ hasRow_insert h hk row))
        · exact .inr hin

theorem noneDoubled_insert_iff (h : Inv w) (hone : NoneDoubled w) {k : Work ν} (hk : k ∈ w.work)
    (row : Row ν) : NoneDoubled (w.insert k.entry row) ↔
      ∀ key, (k.entry, key) ∈ w.wrote → key = row.key := by
  have hmem : ∀ p, p ∈ (w.insert k.entry row).wrote ↔ p ∈ w.wrote ∨ p = (k.entry, row.key) := by
    simp [Writer.insert]
  rw [(h.insert hk row).noneDoubled_iff]
  rw [h.noneDoubled_iff] at hone
  constructor
  · intro hone' key hkey
    exact hone' k.entry key row.key ((hmem _).2 (.inl hkey)) ((hmem _).2 (.inr rfl))
  · intro hkeys i key key' hkey hkey'
    rcases (hmem _).1 hkey with hold | hnew
    · rcases (hmem _).1 hkey' with hold' | hnew'
      · exact hone i key key' hold hold'
      · obtain ⟨rfl, rfl⟩ := Prod.mk.inj hnew'
        exact hkeys key hold
    · obtain ⟨rfl, rfl⟩ := Prod.mk.inj hnew
      rcases (hmem _).1 hkey' with hold' | hnew'
      · exact (hkeys key' hold').symm
      · exact (Prod.mk.inj hnew').2.symm

theorem noneDoubled_attempt_iff (h : Inv w) (hone : NoneDoubled w) {k : Work ν} (hk : k ∈ w.work)
    (byteSize : ν) (insert : Outcome) (xack : Bool) :
    NoneDoubled (w.attempt J k byteSize insert xack) ↔
      (insert ≠ .failed → ∀ row ∈ writeRecordingLog J w.now byteSize k.event,
        ∀ key, (k.entry, key) ∈ w.wrote → key = row.key) := by
  rw [Writer.attempt]
  cases writeRecordingLog J w.now byteSize k.event with
  | none =>
    have hkept : NoneDoubled (w.retry k) := hone
    simp [hkept]
  | some row =>
    have hins := noneDoubled_insert_iff h hone hk row
    by_cases hfail : insert = .failed
    · have hkept : NoneDoubled (w.retry k) := hone
      simp [hfail, hkept]
    · have hdone : NoneDoubled (w.insert k.entry row) ↔ (insert ≠ .failed → ∀ row' ∈ some row,
          ∀ key, (k.entry, key) ∈ w.wrote → key = row'.key) := by
        refine hins.trans ⟨?_, fun hkeys => hkeys hfail row rfl⟩
        intro hkeys _ row' hrow'
        rw [← Option.mem_some_iff.1 hrow']
        exact hkeys
      cases insert with
      | failed => exact absurd rfl hfail
      | unanswered => exact hdone
      | ok => cases xack <;> exact hdone

theorem noneLost_read (hlost : NoneLost w) (n : Nat) : NoneLost (step J stream w (.read n)) := by
  rw [step]
  split
  · next hguard =>
    intro i hi
    by_cases hold : i < w.cursor
    · rcases hlost i hold with (hin | ⟨k, hk, -⟩) | hin
      · rw [hguard.1] at hin
        exact absurd hin List.not_mem_nil
      · simp [Option.isNone_iff_eq_none.1 hguard.2.1] at hk
      · exact .inr hin
    · exact .inl (.inl (List.mem_range'_1.2 ⟨Nat.le_of_not_lt hold, hi⟩))
  · exact hlost

theorem noneDoubled_read (hone : NoneDoubled w) (n : Nat) :
    NoneDoubled (step J stream w (.read n)) := by
  rw [step]
  split <;> exact hone

theorem sound_begin_iff (h : Inv w) (hw : Sound w) :
    Sound (step J stream w .begin) ↔ Safe J stream w .begin := by
  cases hwork : w.work with
  | some k =>
    rw [step_begin_of_work hwork]
    simp [Safe, hwork, hw]
  | none =>
    cases hbatch : w.batch with
    | nil =>
      rw [step_begin_of_nil hbatch]
      simp [Safe, hbatch, hw]
    | cons i rest =>
      rw [step_begin_of_cons hwork hbatch]
      simp only [Safe, hwork, hbatch]
      cases hparse : parseFields J (stream i) with
      | none =>
        have hlost' : ¬ NoneLost w.abandon := by
          rw [noneLost_abandon_iff h hw.1, hbatch]
          simp
        simp [Sound, hlost', hparse]
      | some event =>
        refine iff_of_true ⟨?_, hw.2⟩ (by simp [hparse])
        intro j hj
        rcases hw.1 j hj with (hin | ⟨k, hk, -⟩) | hin
        · rw [hbatch] at hin
          rcases List.mem_cons.1 hin with heq | hin
          · exact .inl (.inr ⟨_, rfl, heq.symm⟩)
          · exact .inl (.inl hin)
        · simp [hwork] at hk
        · exact .inr hin

/-- A step keeps what was written sound exactly when it is safe. -/
theorem sound_step_iff (h : Inv w) (hw : Sound w) (a : Action ν) :
    Sound (step J stream w a) ↔ Safe J stream w a := by
  have hsame : Sound w ↔ True := iff_true_intro hw
  obtain ⟨hlost, hone⟩ := hw
  cases a with
  | read n => exact iff_true_intro ⟨noneLost_read hlost n, noneDoubled_read hone n⟩
  | begin => exact sound_begin_iff h ⟨hlost, hone⟩
  | attempt byteSize insert xack =>
    cases hwork : w.work with
    | none => simp [RecordingLog.step, Safe, hwork, hsame]
    | some k =>
      by_cases hmax : k.attempt ≤ maxRetries
      · have hlost' := noneLost_attempt (J := J) h hlost hwork byteSize insert xack
        have hiff := noneDoubled_attempt_iff (J := J) h hone hwork byteSize insert xack
        simp only [RecordingLog.step, Safe, hwork, if_pos hmax, Sound, hlost', true_and, hiff]
        simp [hmax]
      · simp [RecordingLog.step, Safe, hwork, hmax, hsame]
  | deadLetter xadd xack =>
    cases hwork : w.work with
    | none => simp [RecordingLog.step, Safe, hwork, hsame]
    | some k =>
      by_cases hmax : k.attempt ≤ maxRetries
      · simp [RecordingLog.step, Safe, hwork, hmax, hsame]
      · have hone' : NoneDoubled (w.deadLetter k xadd xack) := by
          simpa [NoneDoubled] using hone
        have hiff := noneLost_deadLetter_iff h hlost hwork xadd xack
        simp only [RecordingLog.step, Safe, hwork, if_neg hmax, Sound, hone', and_true, hiff]
        simp [Nat.lt_of_not_le hmax]
  | restart =>
    have hone' : NoneDoubled w.abandon := hone
    simp only [RecordingLog.step, Safe, Sound, hone', and_true, noneLost_abandon_iff h hlost]
    exact and_comm
  | tick ms => exact hsame

end Steps

theorem Sound.start (now : Int) : Sound (Writer.start now : Writer ν) := by
  constructor
  · intro i hi
    exact absurd hi (Nat.not_lt_zero i)
  · intro i row hrow
    exact absurd hrow List.not_mem_nil

/-- No entry is lost or doubled in a run exactly when all its steps are safe. -/
theorem recordings_kept_iff [DecidableEq ν] (J : Js ν) (stream : Nat → List String) (now : Int)
    (l : List (Action ν)) :
    Always (step J stream) Sound (Writer.start now) l ↔
      EachStep (step J stream) (Safe J stream) (Writer.start now) l :=
  always_iff_eachStep (fun _ a h _ _ => h.step a) (fun _ a h hw => sound_step_iff h hw a) l
    (Inv.start now) (Sound.start now)

/-- Texts as values, without one for null and undefined. A brace alone is not JSON. -/
def textJs : Js (Option String) where
  jsonParse payload :=
    if payload = "\x7b\x7d" then
      some ⟨none, none, none, none, none, none, none, none, none, none, none, none, none, none,
        none, none⟩
    else none
  number s := some s
  text s := some s
  undefined := none
  null := none
  falsy v := v == none || v == some "" || v == some "0"
  nullish v := v == none
  seconds v := v
  epochMs _ := none

def brokenStream : Nat → List String
  | 0 => ["payload", "\x7b"]
  | _ => ["uuid", "a1"]

theorem unreadable_payload_loses_batch :
    ¬ Always (step textJs brokenStream) Sound (Writer.start 0) [.read 2, .begin, .read 1] := by
  intro h
  have hlast : [Action.read 2, .begin, .read 1].foldl (step textJs brokenStream)
      (Writer.start 0) = ⟨0, 3, [2], none, [], [], [], []⟩ := rfl
  have hlost := h.last.1
  rw [hlast] at hlost
  rcases hlost 1 (by decide) with (hin | ⟨k, hk, -⟩) | ⟨row, hrow, -⟩ | hin
  · exact absurd hin (by decide)
  · exact absurd hk (by simp)
  · exact absurd hrow List.not_mem_nil
  · exact absurd hin List.not_mem_nil

end

end RecordingLog

end Vici2
