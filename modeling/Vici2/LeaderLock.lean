import Mathlib.Data.List.Pairwise
import Mathlib.Algebra.Order.Ring.Int
import Mathlib.Logic.Function.Basic
import Vici2.Runs

/-! The locks under which one pod at a time sweeps, fires callbacks or dispatches an
in-group: `SET NX` with a time to live at the beginning, and at the end a `DEL` that
names the key only. -/

namespace Vici2

namespace LeaderLock

inductive Job
  | janitorSweep (tid : Int)
  | callbackFireTick (tenantId : Int)
  | runDispatchCycle (tid : Int) (igid : String)
  deriving DecidableEq, Repr

def Job.lockKey : Job → String
  | .janitorSweep tid => "t:" ++ toString tid ++ ":janitor:lock"
  | .callbackFireTick tenantId => "t:" ++ toString tenantId ++ ":cron:lock:callback_fire"
  | .runDispatchCycle tid igid => "t:" ++ toString tid ++ ":queue_dispatch_lock:" ++ igid

/-- The time to live of the lock in milliseconds. -/
def Job.ttl : Job → Int
  | .janitorSweep _ => 90000
  | .callbackFireTick _ => 60000
  | .runDispatchCycle _ _ => 5000

structure Lock where
  pod : String
  deadline : Int
  deriving DecidableEq, Repr

/-- A pod inside the protected work of a job. -/
structure Tenure where
  pod : String
  job : Job
  acquiredAt : Int
  deriving DecidableEq, Repr

def Tenure.deadline (x : Tenure) : Int := x.acquiredAt + x.job.ttl

structure World where
  now : Int
  locks : String → Option Lock
  inside : List Tenure

def World.start (now : Int) : World := ⟨now, fun _ => none, []⟩

def World.live (w : World) (key : String) : Option Lock :=
  (w.locks key).filter fun lock => w.now < lock.deadline

/-- `SET key pod NX PX ttl`, then the work. The answer of a `SET` can get lost, which
leaves the lock without anybody inside; so can the `DEL`, and a pod can stop in between. -/
inductive Action
  | acquire (pod : String) (job : Job)
  | acquireUnanswered (pod : String) (job : Job)
  | release (i : Nat)
  | leave (i : Nat)
  | tick (ms : Nat)
  deriving DecidableEq, Repr

def World.setNX (w : World) (pod : String) (job : Job) : World :=
  { w with locks := Function.update w.locks job.lockKey (some ⟨pod, w.now + job.ttl⟩) }

def step (w : World) : Action → World
  | .acquire pod job =>
    if w.live job.lockKey = none then
      { w.setNX pod job with inside := w.inside ++ [⟨pod, job, w.now⟩] }
    else w
  | .acquireUnanswered pod job =>
    if w.live job.lockKey = none then w.setNX pod job else w
  | .release i =>
    match w.inside[i]? with
    | none => w
    | some x =>
      { w with
        locks := Function.update w.locks x.job.lockKey none
        inside := w.inside.eraseIdx i }
  | .leave i => { w with inside := w.inside.eraseIdx i }
  | .tick ms => { w with now := w.now + ms }

/-- A release removes no lock that another pod has acquired. -/
def KeepsOthers (w : World) : Action → Prop
  | .release i => ∀ x ∈ w.inside[i]?, ∀ lock ∈ w.live x.job.lockKey, lock.pod = x.pod
  | _ => True

/-- At most one pod within the time to live of its own acquisition is inside the work
under a lock. -/
def Exclusive (w : World) : Prop :=
  ∀ x ∈ w.inside, ∀ y ∈ w.inside, x.job.lockKey = y.job.lockKey →
    w.now < x.deadline → w.now < y.deadline → x.pod = y.pod

/-- A pod releases within the time to live of its own acquisition, or while the lock is
free. -/
def Timely (w : World) : Action → Prop
  | .release i => ∀ x ∈ w.inside[i]?, w.now < x.deadline ∨ w.live x.job.lockKey = none
  | _ => True

/-- Two runs of a job under one lock, one of them past its time. -/
def Apart (now : Int) (x y : Tenure) : Prop :=
  x.job.lockKey = y.job.lockKey → x.deadline ≤ now ∨ y.deadline ≤ now

structure Inv (w : World) : Prop where
  holds : ∀ x ∈ w.inside, w.now < x.deadline →
    w.locks x.job.lockKey = some ⟨x.pod, x.deadline⟩
  apart : w.inside.Pairwise (Apart w.now)

theorem live_eq_some {w : World} {key : String} {lock : Lock} :
    w.live key = some lock ↔ w.locks key = some lock ∧ w.now < lock.deadline := by
  simp [World.live, Option.filter_eq_some_iff]

theorem Inv.live {w : World} (h : Inv w) {x : Tenure} (hx : x ∈ w.inside)
    (hnow : w.now < x.deadline) : w.live x.job.lockKey = some ⟨x.pod, x.deadline⟩ :=
  live_eq_some.2 ⟨h.holds x hx hnow, hnow⟩

theorem Inv.late_of_free {w : World} (h : Inv w) {key : String} (hfree : w.live key = none)
    {x : Tenure} (hx : x ∈ w.inside) (hkey : x.job.lockKey = key) : x.deadline ≤ w.now := by
  by_contra hnow
  have hlive := h.live hx (not_le.1 hnow)
  rw [hkey, hfree] at hlive
  simp at hlive

theorem Inv.exclusive {w : World} (h : Inv w) : Exclusive w := by
  intro x hx y hy hkey hnowx hnowy
  have hlx := h.holds x hx hnowx
  have hly := h.holds y hy hnowy
  rw [hkey, hly, Option.some.injEq, Lock.mk.injEq] at hlx
  exact hlx.1.symm

theorem Inv.keepsOthers {w : World} (h : Inv w) {a : Action} (ht : Timely w a) :
    KeepsOthers w a := by
  cases a with
  | release i =>
    intro x hx lock hlock
    rcases ht x hx with hnow | hfree
    · have hlive := h.live (List.mem_of_getElem? hx) hnow
      have heq : some lock = some ⟨x.pod, x.deadline⟩ := hlock.symm.trans hlive
      rw [Option.some.inj heq]
    · simp [hfree] at hlock
  | acquire pod job => trivial
  | acquireUnanswered pod job => trivial
  | leave i => trivial
  | tick ms => trivial

theorem Inv.start (now : Int) : Inv (World.start now) := by
  constructor <;> simp [World.start]

theorem Inv.leave {w : World} (h : Inv w) (i : Nat) : Inv (step w (.leave i)) := by
  refine ⟨?_, h.apart.sublist (List.eraseIdx_sublist w.inside i)⟩
  intro x hx
  exact h.holds x (List.mem_of_mem_eraseIdx hx)

theorem Inv.tick {w : World} (h : Inv w) (ms : Nat) : Inv (step w (.tick ms)) := by
  refine ⟨?_, ?_⟩
  · intro x hx hnow
    have hlater : w.now + ms < x.deadline := hnow
    exact h.holds x hx (by omega)
  · refine h.apart.imp ?_
    intro x y hxy hkey
    have hlater : (step w (.tick ms)).now = w.now + ms := rfl
    rcases hxy hkey with hx | hy
    · left; omega
    · right; omega

theorem Inv.setNX {w : World} (h : Inv w) (pod : String) {job : Job}
    (hfree : w.live job.lockKey = none) : Inv (w.setNX pod job) := by
  refine ⟨?_, h.apart⟩
  intro x hx hnow
  have hkey : x.job.lockKey ≠ job.lockKey := by
    intro hkey
    have hlate := h.late_of_free hfree hx hkey
    exact absurd hnow (not_lt.2 hlate)
  simpa [World.setNX, hkey] using h.holds x hx hnow

theorem Inv.enter {w : World} (h : Inv w) (pod : String) {job : Job}
    (hfree : w.live job.lockKey = none) :
    Inv { w.setNX pod job with inside := w.inside ++ [⟨pod, job, w.now⟩] } := by
  have hset := h.setNX pod hfree
  refine ⟨?_, List.pairwise_append.2 ⟨h.apart, List.pairwise_singleton _ _, ?_⟩⟩
  · intro x hx hnow
    rcases List.mem_append.1 hx with hx | hx
    · exact hset.holds x hx hnow
    · have hnew : x = ⟨pod, job, w.now⟩ := by simpa using hx
      simp [hnew, World.setNX, Tenure.deadline]
  · intro x hx y hy hkey
    have hnew : y = ⟨pod, job, w.now⟩ := by simpa using hy
    left
    exact h.late_of_free hfree hx (by rw [hkey, hnew])

theorem Inv.others_late {w : World} (h : Inv w) {i : Nat} {x : Tenure}
    (hx : w.inside[i]? = some x) (hnow : w.now < x.deadline) {y : Tenure}
    (hy : y ∈ w.inside.eraseIdx i) (hkey : y.job.lockKey = x.job.lockKey) : y.deadline ≤ w.now := by
  obtain ⟨j, hj, hyj⟩ := List.mem_eraseIdx_iff_getElem?.1 hy
  have hapart := List.pairwise_iff_getElem.1 h.apart
  obtain ⟨hi, rfl⟩ := List.getElem?_eq_some_iff.1 hx
  obtain ⟨hj', rfl⟩ := List.getElem?_eq_some_iff.1 hyj
  rcases Nat.lt_or_gt_of_ne hj with hlt | hlt
  · rcases hapart j i hj' hi hlt hkey with hlate | hlate
    · exact hlate
    · omega
  · rcases hapart i j hi hj' hlt hkey.symm with hlate | hlate
    · omega
    · exact hlate

theorem Inv.release {w : World} (h : Inv w) {i : Nat} (ht : Timely w (.release i)) :
    Inv (step w (.release i)) := by
  cases hx : w.inside[i]? with
  | none => simpa [step, hx] using h
  | some x =>
    have hstep : step w (.release i) =
        { w with
          locks := Function.update w.locks x.job.lockKey none
          inside := w.inside.eraseIdx i } := by simp [step, hx]
    have hlate : ∀ y ∈ w.inside.eraseIdx i, y.job.lockKey = x.job.lockKey →
        y.deadline ≤ w.now := by
      intro y hy hkey
      rcases ht x hx with hnow | hfree
      · exact h.others_late hx hnow hy hkey
      · exact h.late_of_free hfree (List.mem_of_mem_eraseIdx hy) hkey
    have he := h.leave i
    rw [hstep]
    refine ⟨?_, he.apart⟩
    intro y hy hnow
    have hkey : y.job.lockKey ≠ x.job.lockKey := by
      intro hkey
      exact absurd hnow (not_lt.2 (hlate y hy hkey))
    have hlock : w.locks y.job.lockKey = some ⟨y.pod, y.deadline⟩ := he.holds y hy hnow
    simpa [hkey] using hlock

theorem Inv.step {w : World} (h : Inv w) {a : Action} (ht : Timely w a) : Inv (step w a) := by
  cases a with
  | acquire pod job =>
    by_cases hfree : w.live job.lockKey = none
    · simpa [LeaderLock.step, hfree] using h.enter pod hfree
    · simpa [LeaderLock.step, hfree] using h
  | acquireUnanswered pod job =>
    by_cases hfree : w.live job.lockKey = none
    · simpa [LeaderLock.step, hfree] using h.setNX pod hfree
    · simpa [LeaderLock.step, hfree] using h
  | release i => exact h.release ht
  | leave i => exact h.leave i
  | tick ms => exact h.tick ms

theorem timely_runs_exclude (now : Int) (l : List Action)
    (h : EachStep step Timely (World.start now) l) :
    Always step Exclusive (World.start now) l ∧
      EachStep step KeepsOthers (World.start now) l := by
  have hstep : ∀ w a, Inv w → Timely w a → Inv (LeaderLock.step w a) :=
    fun w a hw ha => hw.step ha
  constructor
  · exact (always_of_eachStep hstep (Inv.start now) h).mono fun w hw => hw.exclusive
  · exact eachStep_of_invariant hstep (fun w a hw ha => hw.keepsOthers ha) (Inv.start now) h

/-- Two pods sweep one after the other, the second after the first has let its lock
lapse and has gone. -/
theorem lapsed_sweep_excludes :
    let l : List Action :=
      [.acquire "a" (.janitorSweep 1), .tick 90000, .release 0, .acquire "b" (.janitorSweep 1)]
    EachStep step Timely (World.start 0) l ∧ Always step Exclusive (World.start 0) l ∧
      EachStep step KeepsOthers (World.start 0) l := by
  have h : EachStep step Timely (World.start 0)
      [.acquire "a" (.janitorSweep 1), .tick 90000, .release 0, .acquire "b" (.janitorSweep 1)] := by
    simp [EachStep, Timely, step, World.start, World.live, World.setNX, Job.ttl]
  exact ⟨h, timely_runs_exclude 0 _ h⟩

/-- The first pod's sweep outlasts its lock; its release then removes the second pod's,
and a third pod joins the second. -/
theorem slow_sweep_admits_two :
    let l : List Action :=
      [.acquire "a" (.janitorSweep 1), .tick 90000, .acquire "b" (.janitorSweep 1), .release 0,
        .acquire "c" (.janitorSweep 1)]
    ¬ EachStep step KeepsOthers (World.start 0) l ∧
      ¬ Exclusive (l.foldl step (World.start 0)) := by
  constructor
  · simp [EachStep, KeepsOthers, step, World.start, World.live, World.setNX, Job.ttl]
  · simp [Exclusive, step, World.start, World.live, World.setNX, Job.ttl, Tenure.deadline]

end LeaderLock

end Vici2
