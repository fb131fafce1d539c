import Vici2.RndResults
import Vici2.Runs
import Mathlib.Data.List.Dedup

/-! The processor of a scrub job: an attempt queries the phones of a campaign in batches and
writes the results, and the queue runs the job again after an attempt that throws. The job
row, the campaign row and the counters of the job are written apart from each other. Commands
on these rows are taken to succeed outside the writer; the audit and usage logs are left out
but for the failure of the latter. -/

namespace Vici2

namespace Dnc

inductive RndScrubStatus
  | queued
  | running
  | completed
  | failed
  | pausedBudget
  deriving DecidableEq, Repr

inductive RndCampaignScrubStatus
  | never
  | pending
  | running
  | completed
  | failed
  | pausedBudget
  deriving DecidableEq, Repr

structure RndScrubJob where
  status : RndScrubStatus
  totalPhones : Nat
  phonesQueried : Nat
  phonesYes : Nat
  phonesNo : Nat
  phonesNoData : Nat
  phonesError : Nat
  deriving DecidableEq, Repr

structure ActivePhoneRow where
  phoneNumber : String
  consentDate : Option Int
  consentDateSrc : Option ConsentDateSrc
  deriving DecidableEq, Repr

def ActivePhoneRow.phone (fallbackDate : Int) (row : ActivePhoneRow) : PhoneWithConsent where
  phoneE164 := row.phoneNumber
  consentDate := row.consentDate.getD fallbackDate
  consentDateSrc :=
    row.consentDateSrc.getD (if row.consentDate.isSome then .inferred else .fallback)

/-- The loop of `fetchActivePhones`, which keeps the first row of a phone. -/
def keepFirst (fallbackDate : Int) (seen : List String) :
    List ActivePhoneRow → List PhoneWithConsent
  | [] => []
  | row :: rows =>
    if row.phoneNumber ∈ seen then keepFirst fallbackDate seen rows
    else row.phone fallbackDate :: keepFirst fallbackDate (row.phoneNumber :: seen) rows

def fetchActivePhones (fallbackDate : Int) (rows : List ActivePhoneRow) : List PhoneWithConsent :=
  keepFirst fallbackDate [] rows

def apiBatchSize : Nat := 1000

def chunkPhones (phones : List PhoneWithConsent) (size : Nat) : List (List PhoneWithConsent) :=
  (List.range ((phones.length + size - 1) / size)).map fun i => (phones.drop (i * size)).take size

inductive QueryAnswer
  | response (results : List RndResultItem)
  | rateLimit (retryAfterSeconds : Option Nat)
  | outage (message : String)
  | quota
  | error (message : String)
  deriving DecidableEq, Repr

/-- What the processor meets in one round: the answers to its query and to the one retry,
the commands of the writer, the table of numbers, and whether the usage log and the progress
report succeed. -/
structure RoundEnv where
  first : QueryAnswer
  retry : QueryAnswer
  env : ScrubEnv
  table : List DncRow
  logged : Bool

inductive RoundAnswer
  | response (results : List RndResultItem)
  | outage
  | quota
  | thrown
  deriving DecidableEq, Repr

def RoundEnv.answer (r : RoundEnv) : RoundAnswer :=
  match r.first with
  | .response results => .response results
  | .rateLimit _ =>
    match r.retry with
    | .response results => .response results
    | _ => .thrown
  | .outage _ => .outage
  | .quota => .quota
  | .error _ => .thrown

/-- An attempt; `prepared` is false where something throws before the phones are there. -/
structure ScrubAttempt where
  tenantId : Int
  scrubJobId : String
  noDataPolicy : NoDataPolicy
  prepared : Bool
  fallbackDate : Int
  rows : List ActivePhoneRow
  rounds : Nat → RoundEnv

/-- The two rows; beside them, for the statements, the phones of every query that was sent
and of every answer that was counted, and whether an attempt has returned. -/
structure ScrubWorld where
  job : RndScrubJob
  campaign : RndCampaignScrubStatus
  queried : List String
  answered : List String
  returned : Bool
  deriving DecidableEq, Repr

def RndResultItem.counted (r : RndResultItem) : Bool :=
  r.result = .yes ∨ r.result = .no ∨ r.result = .noData

def countedPhones (results : List RndResultItem) : List String :=
  (results.filter RndResultItem.counted).map RndResultItem.tn

structure ScrubRound where
  chunk : List PhoneWithConsent
  env : RoundEnv

inductive LoopExit
  | through
  | returned
  | thrown
  deriving DecidableEq, Repr

namespace ScrubAttempt

def phones (a : ScrubAttempt) : List PhoneWithConsent := fetchActivePhones a.fallbackDate a.rows

def batches (a : ScrubAttempt) : List ScrubRound :=
  (chunkPhones a.phones apiBatchSize).zipIdx.map fun (chunk, i) => ⟨chunk, a.rounds i⟩

def batch (a : ScrubAttempt) (chunk : List PhoneWithConsent) (results : List RndResultItem) :
    ScrubBatch :=
  ⟨a.tenantId, a.scrubJobId, results, chunk, a.noDataPolicy⟩

def write (a : ScrubAttempt) (r : ScrubRound) (results : List RndResultItem) :
    Option (List DncRow × WriteState) :=
  writeResults r.env.env (a.batch r.chunk results) r.env.table

end ScrubAttempt

namespace ScrubWorld

def start : ScrubWorld := ⟨⟨.queued, 0, 0, 0, 0, 0, 0⟩, .pending, [], [], false⟩

variable (w : ScrubWorld)

def markRunning : ScrubWorld :=
  { w with
    job := { w.job with status := .running }
    campaign := .running }

def markCompleted : ScrubWorld :=
  { w with
    job := { w.job with status := .completed }
    campaign := .completed
    returned := true }

/-- The `catch` of the processor, which throws again. -/
def markFailed : ScrubWorld :=
  { w with
    job := { w.job with status := .failed }
    campaign := .failed }

def sendQuery (chunk : List PhoneWithConsent) : ScrubWorld :=
  { w with queried := w.queried ++ chunk.map PhoneWithConsent.phoneE164 }

def count (results : List RndResultItem) (st : WriteState) : ScrubWorld :=
  { w with
    job :=
      { w.job with
        phonesQueried := w.job.phonesQueried + results.length
        phonesYes := w.job.phonesYes + st.yesCount
        phonesNo := w.job.phonesNo + st.noCount
        phonesNoData := w.job.phonesNoData + st.noDataCount
        phonesError := w.job.phonesError + st.errorCount }
    answered := w.answered ++ countedPhones results }

def jobReturns (status : RndScrubStatus) : ScrubWorld :=
  { w with
    job := { w.job with status := status }
    returned := true }

end ScrubWorld

def runBatches (a : ScrubAttempt) : ScrubWorld → List ScrubRound → ScrubWorld × LoopExit
  | w, [] => (w, .through)
  | w, r :: rs =>
    let w := w.sendQuery r.chunk
    match r.env.answer with
    | .outage => (w.jobReturns .failed, .returned)
    | .quota => (w.jobReturns .pausedBudget, .returned)
    | .thrown => (w, .thrown)
    | .response results =>
      match a.write r results with
      | none => (w, .thrown)
      | some (_, st) =>
        if r.env.logged then runBatches a (w.count results st) rs
        else (w.count results st, .thrown)

/-- `processor`; the queue does not run a job again that has returned. -/
def processor (w : ScrubWorld) (a : ScrubAttempt) : ScrubWorld :=
  if w.returned then w
  else
    let w := w.markRunning
    if a.prepared then
      let w := { w with job := { w.job with totalPhones := a.phones.length } }
      if a.phones.length = 0 then w.markCompleted
      else
        match runBatches a w a.batches with
        | (w, .through) => w.markCompleted
        | (w, .returned) => w
        | (w, .thrown) => w.markFailed
    else w.markFailed

def RndScrubStatus.campaign : RndScrubStatus → RndCampaignScrubStatus
  | .queued => .pending
  | .running => .running
  | .completed => .completed
  | .failed => .failed
  | .pausedBudget => .pausedBudget

/-- The campaign is not left running and agrees with the job, and a completed job has
counted each phone it has queried once. -/
structure Coherent (w : ScrubWorld) : Prop where
  settled : w.campaign ≠ .running
  agrees : w.campaign = w.job.status.campaign
  counted : w.job.status = .completed →
    w.job.phonesYes + w.job.phonesNo + w.job.phonesNoData = w.queried.dedup.length ∧
      ∀ phone ∈ w.queried, phone ∈ w.answered

def ScrubAttempt.Passes (a : ScrubAttempt) (r : ScrubRound) : Prop :=
  ∃ results, r.env.answer = .response results ∧ (a.write r results).isSome = true ∧
    r.env.logged = true

/-- The rounds run into an outage or the end of the quota. -/
def ScrubAttempt.StopsIn (a : ScrubAttempt) (rounds : List ScrubRound) : Prop :=
  ∃ before r after, rounds = before ++ r :: after ∧ (∀ q ∈ before, a.Passes q) ∧
    (r.env.answer = .outage ∨ r.env.answer = .quota)

def ScrubAttempt.Stops (a : ScrubAttempt) : Prop := a.StopsIn a.batches

def ScrubRound.countedPhones (r : ScrubRound) : List String :=
  match r.env.answer with
  | .response results => Dnc.countedPhones results
  | _ => []

/-- An attempt that gets to its phones does not run into an outage or the end of the quota;
if it gets through all its batches, the answers of the job so far name every phone that has
been queried once, and no other. -/
def AttemptOk (w : ScrubWorld) (a : ScrubAttempt) : Prop :=
  w.returned = false → a.prepared = true →
    ¬ a.Stops ∧
    ((∀ r ∈ a.batches, a.Passes r) →
      (w.answered ++ a.batches.flatMap ScrubRound.countedPhones).Perm
        (w.queried ++ a.phones.map PhoneWithConsent.phoneE164).dedup)

theorem writeResult_total (env : ScrubEnv) (p : ScrubBatch) (st : WriteState) (r : RndResultItem) :
    (writeResult env p st r).yesCount + (writeResult env p st r).noCount +
        (writeResult env p st r).noDataCount =
      st.yesCount + st.noCount + st.noDataCount + (countedPhones [r]).length := by
  cases hr : r.result with
  | yes =>
    simp only [writeResult, hr]
    simp [countedPhones, RndResultItem.counted, hr]
    omega
  | no =>
    simp only [writeResult, hr]
    simp [countedPhones, RndResultItem.counted, hr]
    omega
  | noData =>
    by_cases hblock : p.noDataPolicy = .block
    · simp only [writeResult, hr, if_pos hblock]
      simp [countedPhones, RndResultItem.counted, hr]
      omega
    · simp only [writeResult, hr, if_neg hblock]
      simp [countedPhones, RndResultItem.counted, hr]
      omega
  | other text =>
    simp only [writeResult, hr]
    simp [countedPhones, RndResultItem.counted, hr]

theorem countedPhones_cons (r : RndResultItem) (rs : List RndResultItem) :
    countedPhones (r :: rs) = countedPhones [r] ++ countedPhones rs := by
  have hsplit : r :: rs = [r] ++ rs := rfl
  rw [countedPhones, hsplit, List.filter_append, List.map_append]
  rfl

theorem foldl_writeResult_total (env : ScrubEnv) (p : ScrubBatch) (rs : List RndResultItem)
    (st : WriteState) :
    (rs.foldl (writeResult env p) st).yesCount + (rs.foldl (writeResult env p) st).noCount +
        (rs.foldl (writeResult env p) st).noDataCount =
      st.yesCount + st.noCount + st.noDataCount + (countedPhones rs).length := by
  induction rs generalizing st with
  | nil => rfl
  | cons r rs ih =>
    have hstep := writeResult_total env p st r
    rw [List.foldl_cons, ih, hstep, countedPhones_cons r rs, List.length_append]
    omega

/-- The counters of a batch that is written are the number of its counted answers. -/
theorem writeResults_total {env : ScrubEnv} {p : ScrubBatch} {table table' : List DncRow}
    {st : WriteState} (h : writeResults env p table = some (table', st)) :
    st.yesCount + st.noCount + st.noDataCount = (countedPhones p.results).length := by
  have hst : st = p.results.foldl (writeResult env p) ⟨0, 0, 0, 0, 0, [], [], []⟩ := by
    rw [writeResults] at h
    split at h
    · obtain ⟨t, -, hupdate⟩ := Option.bind_eq_some_iff.1 h
      split at hupdate
      · exact (congrArg Prod.snd (Option.some.inj hupdate)).symm
      · cases hupdate
    · cases h
  have htotal := foldl_writeResult_total env p p.results ⟨0, 0, 0, 0, 0, [], [], []⟩
  rw [← hst] at htotal
  rw [htotal]
  simp

theorem flatten_chunks (phones : List PhoneWithConsent) (size n : Nat) :
    ((List.range n).map fun i => (phones.drop (i * size)).take size).flatten =
      phones.take (n * size) := by
  induction n with
  | zero => simp
  | succ n ih =>
    rw [List.range_succ, List.map_append, List.flatten_append, ih, Nat.succ_mul, List.take_add]
    simp

theorem flatten_chunkPhones (phones : List PhoneWithConsent) {size : Nat} (hsize : 0 < size) :
    (chunkPhones phones size).flatten = phones := by
  have hlong : phones.length ≤ (phones.length + size - 1) / size * size := by
    have hmod := Nat.div_add_mod (phones.length + size - 1) size
    have hlt := Nat.mod_lt (phones.length + size - 1) hsize
    rw [Nat.mul_comm] at hmod
    omega
  rw [chunkPhones, flatten_chunks, List.take_of_length_le hlong]

theorem ScrubAttempt.flatMap_chunk (a : ScrubAttempt) :
    (a.batches.flatMap fun r => r.chunk.map PhoneWithConsent.phoneE164) =
      a.phones.map PhoneWithConsent.phoneE164 := by
  have hchunks : a.batches.map ScrubRound.chunk = chunkPhones a.phones apiBatchSize := by
    rw [batches, List.map_map]
    exact List.zipIdx_map_fst 0 _
  have hphones := @flatten_chunkPhones a.phones apiBatchSize (by decide)
  rw [← hchunks] at hphones
  calc (a.batches.flatMap fun r => r.chunk.map PhoneWithConsent.phoneE164)
      = ((a.batches.map ScrubRound.chunk).flatten).map PhoneWithConsent.phoneE164 := by
        rw [List.map_flatten, List.map_map]
        rfl
    _ = a.phones.map PhoneWithConsent.phoneE164 := by rw [hphones]

def ScrubWorld.Tally (w : ScrubWorld) : Prop :=
  w.job.phonesYes + w.job.phonesNo + w.job.phonesNoData = w.answered.length

theorem ScrubWorld.Tally.count {w : ScrubWorld} (h : w.Tally) {a : ScrubAttempt} {r : ScrubRound}
    {results : List RndResultItem} {table : List DncRow} {st : WriteState}
    (hwrite : a.write r results = some (table, st)) : (w.count results st).Tally := by
  have htotal : st.yesCount + st.noCount + st.noDataCount = (countedPhones results).length :=
    writeResults_total hwrite
  unfold Tally at h ⊢
  simp only [ScrubWorld.count, List.length_append]
  omega

/-- With as many counted answers as distinct phones, each of which is answered, each is
answered once. -/
theorem counted_iff {answered queried : List String} :
    (answered.length = queried.dedup.length ∧ ∀ phone ∈ queried, phone ∈ answered) ↔
      answered.Perm queried.dedup := by
  constructor
  · rintro ⟨hlength, hall⟩
    have hsubset : queried.dedup ⊆ answered := fun phone hmem =>
      hall phone (List.mem_dedup.1 hmem)
    have hsubperm := List.subperm_of_subset (List.nodup_dedup queried) hsubset
    exact (hsubperm.perm_of_length_le hlength.le).symm
  · intro hperm
    exact ⟨hperm.length_eq, fun phone hmem => hperm.mem_iff.2 (List.mem_dedup.2 hmem)⟩

section Run

variable {a : ScrubAttempt} {w : ScrubWorld} {r : ScrubRound} {rs : List ScrubRound}

/-- What a round does: it ends the attempt on an outage or the end of the quota, passes its
counted answers on, or throws. -/
theorem runBatches_cons (a : ScrubAttempt) (w : ScrubWorld) (r : ScrubRound)
    (rs : List ScrubRound) :
    ((r.env.answer = .outage ∨ r.env.answer = .quota) ∧ ∃ status,
      runBatches a w (r :: rs) = ((w.sendQuery r.chunk).jobReturns status, .returned)) ∨
    (a.Passes r ∧ ∃ results table st, r.env.answer = .response results ∧
      a.write r results = some (table, st) ∧
      runBatches a w (r :: rs) = runBatches a ((w.sendQuery r.chunk).count results st) rs) ∨
    (¬ a.Passes r ∧ r.env.answer ≠ .outage ∧ r.env.answer ≠ .quota ∧
      ∃ w', runBatches a w (r :: rs) = (w', .thrown) ∧ (w.Tally → w'.Tally)) := by
  cases hanswer : r.env.answer with
  | outage => exact Or.inl ⟨Or.inl rfl, .failed, by simp only [runBatches, hanswer]⟩
  | quota => exact Or.inl ⟨Or.inr rfl, .pausedBudget, by simp only [runBatches, hanswer]⟩
  | thrown =>
    have hpasses : ¬ a.Passes r := by
      rintro ⟨results, hresponse, -⟩
      rw [hanswer] at hresponse
      cases hresponse
    exact Or.inr (Or.inr ⟨hpasses, by decide, by decide, w.sendQuery r.chunk,
      by simp only [runBatches, hanswer], fun h => h⟩)
  | response results =>
    cases hwrite : a.write r results with
    | none =>
      have hpasses : ¬ a.Passes r := by
        rintro ⟨results', hresponse, hsome, -⟩
        rw [hanswer] at hresponse
        obtain rfl := RoundAnswer.response.inj hresponse
        rw [hwrite] at hsome
        cases hsome
      exact Or.inr (Or.inr ⟨hpasses, by simp, by simp, w.sendQuery r.chunk,
        by simp only [runBatches, hanswer, hwrite], fun h => h⟩)
    | some written =>
      obtain ⟨table, st⟩ := written
      by_cases hlogged : r.env.logged = true
      · have hpasses : a.Passes r := ⟨results, hanswer, by rw [hwrite]; rfl, hlogged⟩
        exact Or.inr (Or.inl ⟨hpasses, results, table, st, rfl, hwrite,
          by simp only [runBatches, hanswer, hwrite, if_pos hlogged]⟩)
      · have hpasses : ¬ a.Passes r := fun h => hlogged h.choose_spec.2.2
        exact Or.inr (Or.inr ⟨hpasses, by simp, by simp,
          (w.sendQuery r.chunk).count results st,
          by simp only [runBatches, hanswer, hwrite, if_neg hlogged],
          fun h => ScrubWorld.Tally.count (w := w.sendQuery r.chunk) h hwrite⟩)

theorem ScrubAttempt.Passes.not_stops (h : a.Passes r) :
    ¬ (r.env.answer = .outage ∨ r.env.answer = .quota) := by
  obtain ⟨results, hresponse, -⟩ := h
  rw [hresponse]
  simp

theorem ScrubAttempt.stopsIn_cons_of_passes (h : a.Passes r) :
    a.StopsIn (r :: rs) ↔ a.StopsIn rs := by
  constructor
  · rintro ⟨before, r', after, hsplit, hbefore, hstop⟩
    cases before with
    | nil =>
      obtain ⟨rfl, -⟩ := List.cons.inj hsplit
      exact absurd hstop h.not_stops
    | cons q before =>
      obtain ⟨-, hrest⟩ := List.cons.inj hsplit
      exact ⟨before, r', after, hrest, fun q hq => hbefore q (List.mem_cons_of_mem _ hq), hstop⟩
  · rintro ⟨before, r', after, rfl, hbefore, hstop⟩
    refine ⟨r :: before, r', after, rfl, ?_, hstop⟩
    intro q hq
    rcases List.mem_cons.1 hq with rfl | hq
    · exact h
    · exact hbefore q hq

/-- The three ways through the loop, by what the rounds meet. -/
inductive LoopSpec (a : ScrubAttempt) (w : ScrubWorld) (rs : List ScrubRound) :
    ScrubWorld × LoopExit → Prop
  | through (w' : ScrubWorld) (passes : ∀ r ∈ rs, a.Passes r) (tally : w.Tally → w'.Tally)
      (queried : w'.queried =
        w.queried ++ rs.flatMap fun r => r.chunk.map PhoneWithConsent.phoneE164)
      (answered : w'.answered = w.answered ++ rs.flatMap ScrubRound.countedPhones) :
      LoopSpec a w rs (w', .through)
  | returned (w' : ScrubWorld) (stops : a.StopsIn rs) (campaign : w'.campaign = w.campaign) :
      LoopSpec a w rs (w', .returned)
  | thrown (w' : ScrubWorld) (fails : ¬ ∀ r ∈ rs, a.Passes r) (goesOn : ¬ a.StopsIn rs)
      (tally : w.Tally → w'.Tally) :
      LoopSpec a w rs (w', .thrown)

theorem runBatches_spec (a : ScrubAttempt) (w : ScrubWorld) (rs : List ScrubRound) :
    LoopSpec a w rs (runBatches a w rs) := by
  induction rs generalizing w with
  | nil => exact .through w (by simp) (fun h => h) (by simp) (by simp)
  | cons r rs ih =>
    rcases runBatches_cons a w r rs with ⟨hstop, status, heq⟩ |
      ⟨hpasses, results, table, st, hanswer, hwrite, heq⟩ | ⟨hfails, hno, hnq, w', heq, htally⟩
    · rw [heq]
      exact .returned _ ⟨[], r, rs, rfl, by simp, hstop⟩ rfl
    · have hcounted : r.countedPhones = countedPhones results := by
        rw [ScrubRound.countedPhones, hanswer]
      have hstart : w.Tally → ((w.sendQuery r.chunk).count results st).Tally := fun h =>
        ScrubWorld.Tally.count (w := w.sendQuery r.chunk) h hwrite
      have hspec := ih ((w.sendQuery r.chunk).count results st)
      rw [heq]
      generalize runBatches a ((w.sendQuery r.chunk).count results st) rs = out at hspec ⊢
      cases hspec with
      | through w' hall htally hqueried hanswered =>
        refine .through w' ?_ (fun h => htally (hstart h)) ?_ ?_
        · intro q hq
          rcases List.mem_cons.1 hq with rfl | hq
          · exact hpasses
          · exact hall q hq
        · rw [hqueried, List.flatMap_cons, ← List.append_assoc]
          rfl
        · rw [hanswered, List.flatMap_cons, hcounted, ← List.append_assoc]
          rfl
      | returned w' hstops hcampaign =>
        exact .returned w' ((ScrubAttempt.stopsIn_cons_of_passes hpasses).2 hstops) hcampaign
      | thrown w' hnot hgoes htally =>
        refine .thrown w' ?_ ?_ (fun h => htally (hstart h))
        · exact fun hall => hnot fun q hq => hall q (List.mem_cons_of_mem _ hq)
        · rw [ScrubAttempt.stopsIn_cons_of_passes hpasses]
          exact hgoes
    · rw [heq]
      refine .thrown w' ?_ ?_ htally
      · exact fun hall => hfails (hall r List.mem_cons_self)
      · rintro ⟨before, r', after, hsplit, hbefore, hstop⟩
        cases before with
        | nil =>
          obtain ⟨rfl, -⟩ := List.cons.inj hsplit
          exact hstop.elim hno hnq
        | cons q before =>
          obtain ⟨rfl, -⟩ := List.cons.inj hsplit
          exact hfails (hbefore r List.mem_cons_self)

theorem not_coherent_of_running (h : w.campaign = .running) : ¬ Coherent w :=
  fun hcoherent => hcoherent.settled h

theorem coherent_markFailed (w : ScrubWorld) : Coherent w.markFailed where
  settled := by simp [ScrubWorld.markFailed]
  agrees := rfl
  counted := by simp [ScrubWorld.markFailed]

theorem coherent_markCompleted_iff (hw : w.Tally) :
    Coherent w.markCompleted ↔ w.answered.Perm w.queried.dedup := by
  rw [← counted_iff, ← hw]
  constructor
  · intro hcoherent
    exact hcoherent.counted rfl
  · intro hcounted
    refine ⟨by simp [ScrubWorld.markCompleted], rfl, fun _ => hcounted⟩

def ScrubWorld.withTotal (w : ScrubWorld) (a : ScrubAttempt) : ScrubWorld :=
  { w.markRunning with job := { w.markRunning.job with totalPhones := a.phones.length } }

theorem ScrubAttempt.batches_nil (h : a.phones.length = 0) : a.batches = [] := by
  have hphones : a.phones = [] := List.length_eq_zero_iff.1 h
  rw [batches, hphones]
  rfl

theorem ScrubAttempt.not_stops_of_passes (h : ∀ r ∈ a.batches, a.Passes r) : ¬ a.Stops := by
  rintro ⟨before, r, after, hsplit, -, hstop⟩
  have hmem : r ∈ a.batches := by
    rw [hsplit]
    exact List.mem_append_right _ List.mem_cons_self
  exact (h r hmem).not_stops hstop

/-- The ways through an attempt of a job that has not returned. -/
inductive AttemptSpec (w : ScrubWorld) (a : ScrubAttempt) : ScrubWorld → Prop
  | unprepared (unprepared : a.prepared = false) : AttemptSpec w a w.markRunning.markFailed
  | completed (w' : ScrubWorld) (prepared : a.prepared = true)
      (passes : ∀ r ∈ a.batches, a.Passes r) (tally : w.Tally → w'.Tally)
      (queried : w'.queried = w.queried ++ a.phones.map PhoneWithConsent.phoneE164)
      (answered : w'.answered = w.answered ++ a.batches.flatMap ScrubRound.countedPhones) :
      AttemptSpec w a w'.markCompleted
  | stopped (w' : ScrubWorld) (prepared : a.prepared = true) (stops : a.Stops)
      (campaign : w'.campaign = .running) : AttemptSpec w a w'
  | failed (w' : ScrubWorld) (prepared : a.prepared = true)
      (fails : ¬ ∀ r ∈ a.batches, a.Passes r) (goesOn : ¬ a.Stops)
      (tally : w.Tally → w'.Tally) : AttemptSpec w a w'.markFailed

theorem processor_spec (a : ScrubAttempt) (hret : w.returned = false) :
    AttemptSpec w a (processor w a) := by
  have hgo : ¬ w.returned = true := by
    rw [hret]
    decide
  cases hprep : a.prepared with
  | false =>
    have hfailed : processor w a = w.markRunning.markFailed := by
      rw [processor, if_neg hgo, if_neg (by rw [hprep]; decide)]
    rw [hfailed]
    exact .unprepared hprep
  | true =>
    by_cases hphones : a.phones.length = 0
    · have hempty : processor w a = (w.withTotal a).markCompleted := by
        rw [processor, if_neg hgo, if_pos hprep, if_pos hphones]
        rfl
      have hbatches := ScrubAttempt.batches_nil hphones
      have hnone : a.phones = [] := List.length_eq_zero_iff.1 hphones
      rw [hempty]
      refine .completed (w.withTotal a) hprep ?_ (fun h => h) ?_ ?_
      · rw [hbatches]
        simp
      · rw [hnone]
        exact (List.append_nil _).symm
      · rw [hbatches]
        exact (List.append_nil _).symm
    · have hloop : processor w a =
          match runBatches a (w.withTotal a) a.batches with
          | (w, .through) => w.markCompleted
          | (w, .returned) => w
          | (w, .thrown) => w.markFailed := by
        rw [processor, if_neg hgo, if_pos hprep, if_neg hphones]
        rfl
      have hspec := runBatches_spec a (w.withTotal a) a.batches
      rw [hloop]
      generalize runBatches a (w.withTotal a) a.batches = out at hspec ⊢
      cases hspec with
      | through w' hall htally hqueried hanswered =>
        rw [a.flatMap_chunk] at hqueried
        exact .completed w' hprep hall htally hqueried hanswered
      | returned w' hstops hcampaign => exact .stopped w' hprep hstops hcampaign
      | thrown w' hfails hgoes htally => exact .failed w' hprep hfails hgoes htally

theorem processor_of_returned (a : ScrubAttempt) (hret : w.returned = true) :
    processor w a = w := by
  rw [processor, if_pos hret]

theorem attemptOk_of_returned (a : ScrubAttempt) (hret : w.returned = true) : AttemptOk w a := by
  intro hgo
  rw [hret] at hgo
  cases hgo

/-- One attempt keeps the rows coherent exactly where it is as `AttemptOk` says. -/
theorem processor_coherent_iff (hw : w.Tally) (hP : Coherent w) (a : ScrubAttempt) :
    Coherent (processor w a) ↔ AttemptOk w a := by
  cases hret : w.returned with
  | true =>
    rw [processor_of_returned a hret]
    exact ⟨fun _ => attemptOk_of_returned a hret, fun _ => hP⟩
  | false =>
    have hspec := processor_spec a hret
    generalize processor w a = out at hspec ⊢
    cases hspec with
    | unprepared hprep =>
      refine ⟨fun _ _ hgo => ?_, fun _ => coherent_markFailed _⟩
      rw [hprep] at hgo
      cases hgo
    | completed w' hprep hall htally hqueried hanswered =>
      rw [coherent_markCompleted_iff (htally hw), hqueried, hanswered]
      constructor
      · intro hperm _ _
        exact ⟨ScrubAttempt.not_stops_of_passes hall, fun _ => hperm⟩
      · intro hok
        exact (hok hret hprep).2 hall
    | stopped w' hprep hstops hcampaign =>
      constructor
      · intro h
        exact absurd h (not_coherent_of_running hcampaign)
      · intro hok
        exact absurd hstops (hok hret hprep).1
    | failed w' hprep hfails hgoes htally =>
      constructor
      · intro _ _ _
        exact ⟨hgoes, fun hall => absurd hall hfails⟩
      · intro _
        exact coherent_markFailed w'

/-- The counters stay the number of counted answers, but where the attempt returns from
within its loop, which leaves the campaign running. -/
theorem tally_processor (hw : w.Tally) (a : ScrubAttempt) (hP : Coherent (processor w a)) :
    (processor w a).Tally := by
  cases hret : w.returned with
  | true =>
    rw [processor_of_returned a hret]
    exact hw
  | false =>
    have hspec := processor_spec a hret
    generalize processor w a = out at hspec hP ⊢
    cases hspec with
    | unprepared hprep => exact hw
    | completed w' hprep hall htally hqueried hanswered => exact htally hw
    | stopped w' hprep hstops hcampaign => exact absurd hP (not_coherent_of_running hcampaign)
    | failed w' hprep hfails hgoes htally => exact htally hw

/-- Every attempt of a job leaves its rows coherent exactly where each attempt meets no
outage and no end of the quota, and those that get through name every phone once. -/
theorem scrub_coherent_iff (attempts : List ScrubAttempt) :
    Always processor Coherent ScrubWorld.start attempts ↔
      EachStep processor AttemptOk ScrubWorld.start attempts := by
  have hcoherent : Coherent ScrubWorld.start := ⟨by decide, rfl, by decide⟩
  refine always_iff_eachStep (I := ScrubWorld.Tally) ?_ ?_ attempts rfl hcoherent
  · intro w a hw _ hP
    exact tally_processor hw a hP
  · intro w a hw hP
    exact processor_coherent_iff hw hP a

end Run

/-- A job of one phone, whose query meets an outage. -/
def outageAttempt : ScrubAttempt where
  tenantId := 1
  scrubJobId := "j"
  noDataPolicy := .safe
  prepared := true
  fallbackDate := 0
  rows := [⟨"+15550100", none, none⟩]
  rounds _ := ⟨.outage "HTTP 503", .quota, plainEnv, [], true⟩

/-- The job is marked failed, and the campaign stays running. -/
theorem outage_leaves_running :
    ¬ Always processor Coherent ScrubWorld.start [outageAttempt] := by
  intro h
  have hcoherent : Coherent (processor ScrubWorld.start outageAttempt) := h.last
  have hrunning : (processor ScrubWorld.start outageAttempt).campaign = .running := by
    decide +kernel
  exact hcoherent.settled hrunning

end Dnc

end Vici2
