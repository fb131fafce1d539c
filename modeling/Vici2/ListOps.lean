import Vici2.ListReset
import Vici2.OffsetBatches

/-! Reset and purge of a list as jobs of the worker. Each batch is an UPDATE and, apart from it, a
SELECT for the next cursor. -/

namespace Vici2

namespace Lists

inductive ListOp
  | reset
  | purge
  deriving DecidableEq, Repr

/-- Each attempt of a purge has a `now` of its own. -/
def ListOp.write : ListOp → Int → Lead → Lead
  | .reset, _ => Lead.reset
  | .purge, now => Lead.purge now

/-- What the SELECT finds behind the cursor. -/
def ListOp.found (tenantId listId : Int) : ListOp → Int → Lead → Bool
  | .reset, _, l => l.liveIn tenantId listId
  | .purge, now, l => l.inList tenantId listId && decide (l.deletedAt = some now)

section

variable (tenantId listId : Int) (batchSize : Nat) (hbatch : 0 < batchSize)

def ListOp.batches (op : ListOp) : RetriedUpdate Lead Int where
  key := Lead.id
  matched := Lead.liveIn tenantId listId
  write := op.write
  found := op.found tenantId listId
  size := batchSize
  size_pos := hbatch
  key_write _ _ := by cases op <;> rfl
  found_write now l h := by
    cases op with
    | reset => exact h
    | purge => exact Bool.and_eq_true_iff.2 ⟨(Bool.and_eq_true_iff.1 h).1, decide_eq_true rfl⟩

abbrev processReset : RetriedUpdate Lead Int :=
  ListOp.reset.batches tenantId listId batchSize hbatch

abbrev processPurge : RetriedUpdate Lead Int :=
  ListOp.purge.batches tenantId listId batchSize hbatch

end

variable {tenantId listId : Int} {batchSize : Nat} {hbatch : 0 < batchSize}

theorem ListOp.found_or_written (op : ListOp) (tenantId listId now : Int) :
    (∀ l, op.found tenantId listId now l = true → l.liveIn tenantId listId = true) ∨
      ∀ l, (op.write now l).liveIn tenantId listId = false := by
  cases op with
  | reset => exact Or.inl fun _ h => h
  | purge =>
    right
    intro l
    unfold Lead.liveIn
    rw [ListOp.write, Lead.purge, Option.isNone_some, Bool.and_false]

/-- However the statements of a job mix with the work of others and with its own retries: when it
is done, it has written each lead that was there for it throughout, unless the SELECT for the next
cursor was kept from finding a lead of the batch before it. -/
theorem ListOp.written_of_done (op : ListOp) {leadId : Int} (hpos : 0 < leadId) {now : Int}
    {t : LeadTable} {events : List (OffsetEvent (op.batches tenantId listId batchSize hbatch))}
    (hstays : Always OffsetJob.step (OffsetJob.Stays leadId) (OffsetJob.start now t) events)
    (hkeeps : EachStep OffsetJob.step OffsetJob.Keeps (OffsetJob.start now t) events)
    (hdone : (events.foldl OffsetJob.step (OffsetJob.start now t)).attempt.phase = .done) :
    leadId ∈ (events.foldl OffsetJob.step (OffsetJob.start now t)).attempt.written :=
  OffsetJob.mem_written_of_done hpos hstays hkeeps hdone

def liveTable (n : Nat) : LeadTable := numberedTable n (fun _ => "NA") fun _ => none

/-- Two leads at a time. The first attempt deletes leads 1 and 2 at time 5 and fails; the second,
begun at time 8, meets a fourth lead. -/
def retriedPurge : List (OffsetEvent (processPurge 1 7 2 (by decide))) :=
  [.statement, .restart 8,
    .others (numberedTable 4 (fun _ => "NA") fun i => if i < 2 then some 5 else none),
    .statement, .statement, .statement]

theorem retriedPurge_written :
    3 ∈ (retriedPurge.foldl OffsetJob.step (OffsetJob.start 5 (liveTable 3))).attempt.written :=
  ListOp.purge.written_of_done (by decide) (by decide) (by decide) (by decide)

/-- Lead 1 is deleted between the UPDATE of leads 1 and 2 and its SELECT, which then goes on to
lead 3. -/
def skippingReset : List (OffsetEvent (processReset 1 7 2 (by decide))) :=
  [.statement, .others (numberedTable 4 (fun _ => "NA") fun i => if i = 0 then some 5 else none),
    .statement, .statement, .statement]

example :
    Always OffsetJob.step (OffsetJob.Stays 3) (OffsetJob.start 5 (liveTable 4)) skippingReset ∧
      (skippingReset.foldl OffsetJob.step (OffsetJob.start 5 (liveTable 4))).attempt.phase = .done ∧
      3 ∉ (skippingReset.foldl OffsetJob.step (OffsetJob.start 5 (liveTable 4))).attempt.written := by
  decide

/-- Left alone, an attempt ends; it has then written and counted every live lead of the list,
whatever the statuses were, and no other. -/
theorem ListOp.alone_complete (op : ListOp) (tenantId listId : Int) (batchSize : Nat)
    (hbatch : 0 < batchSize) (now : Int) (t : LeadTable)
    (hpos : ∀ l ∈ t.rows, l.liveIn tenantId listId = true → 0 < l.id) :
    ∃ n, ∃ job : OffsetAttempt ((op.batches tenantId listId batchSize hbatch).attempt now),
      OffsetAttempt.statement^[n] (OffsetAttempt.start t []) = job ∧ job.phase = .done ∧
        job.table.rows = updateAll (Lead.liveIn tenantId listId) (op.write now) t.rows ∧
        job.processed = t.rows.countP (Lead.liveIn tenantId listId) := by
  have hkind := op.found_or_written tenantId listId now
  obtain ⟨n, hdone, hrows, hprocessed⟩ :=
    @OffsetAttempt.alone_done _ ((op.batches tenantId listId batchSize hbatch).attempt now) hkind t
  have hsame : ∀ l ∈ t.rows, ((op.batches tenantId listId batchSize hbatch).attempt now).after 0
      (Lead.liveIn tenantId listId) l = Lead.liveIn tenantId listId l := by
    intro l hl
    rw [Bool.eq_iff_iff, BatchUpdate.after_iff]
    exact ⟨fun h => h.1, fun h => ⟨h, hpos l hl h⟩⟩
  refine ⟨n, _, rfl, hdone, hrows.trans (updateAll_congr hsame), hprocessed.trans ?_⟩
  exact List.countP_congr fun l hl => Bool.eq_iff_iff.1 (hsame l hl)

theorem liveTable_purged :
    ∃ n, ∃ job : OffsetAttempt ((processPurge 1 7 2 (by decide)).attempt 5),
      OffsetAttempt.statement^[n] (OffsetAttempt.start (liveTable 3) []) = job ∧
        job.phase = .done ∧
        job.table.rows = updateAll (Lead.liveIn 1 7) (Lead.purge 5) (liveTable 3).rows ∧
        job.processed = (liveTable 3).rows.countP (Lead.liveIn 1 7) :=
  ListOp.purge.alone_complete 1 7 2 (by decide) 5 (liveTable 3) (by decide)

end Lists

end Vici2
