import Mathlib.Data.List.Perm.Basic
import Vici2.Runs

/-! The lockout of an account after failed logins. A failure is recorded by three
commands to Valkey, an `HGETALL`, an `HSET` of the values computed from it and an
`EXPIRE`, so that concurrent failures interleave. -/

namespace Vici2

namespace Lockout

def ladderSec : List Int := [15 * 60, 30 * 60, 60 * 60, 2 * 3600, 4 * 3600]

def windowSec : Int := 15 * 60

def failThreshold : Nat := 5

def keyTtlSec : Int := 24 * 3600

structure LockoutHash where
  failCount : Nat
  lastFailAt : Int
  lockedUntil : Int
  level : Nat
  deriving DecidableEq, Repr

structure LockoutState where
  failCount : Nat
  lockedUntil : Int
  level : Nat
  isLocked : Bool
  deriving DecidableEq, Repr

def LockoutHash.absent : LockoutHash := ⟨0, 0, 0, 0⟩

def getLockoutState (h : Option LockoutHash) (now : Int) : LockoutState :=
  let h := h.getD .absent
  ⟨h.failCount, h.lockedUntil, h.level, decide (h.lockedUntil > now)⟩

def cooldown (level : Nat) : Int :=
  (ladderSec[min level (ladderSec.length - 1)]?).getD (4 * 3600)

/-- What `recordFailure` writes back, from what it has read. -/
def nextHash (cur : Option LockoutHash) (now : Int) : LockoutHash :=
  let h := cur.getD .absent
  let failCount := if h.lastFailAt ≠ 0 ∧ now - h.lastFailAt > windowSec then 1 else h.failCount + 1
  if failCount ≥ failThreshold then
    ⟨0, now, now + cooldown h.level, min (h.level + 1) ladderSec.length⟩
  else ⟨failCount, now, h.lockedUntil, h.level⟩

/-- A call of `recordFailure` that has read the clock, has read the hash, or has
written it. -/
inductive Call
  | started (now : Int)
  | read (now : Int) (cur : Option LockoutHash)
  | written
  deriving DecidableEq, Repr

/-- The key of one account with its deadline, the calls under way and the number
of calls that have completed. -/
structure World where
  now : Int
  hash : Option LockoutHash
  deadline : Option Int
  calls : List Call
  completed : Nat
  deriving DecidableEq, Repr

inductive Action
  | begin
  | hgetall (i : Nat)
  | hset (i : Nat)
  | expire (i : Nat)
  | tick (seconds : Nat)
  deriving DecidableEq, Repr

def lapses (w : World) (now : Int) : Bool := w.deadline.any fun d => d ≤ now

def step (w : World) : Action → World
  | .begin => { w with calls := w.calls ++ [.started w.now] }
  | .hgetall i =>
    match w.calls[i]? with
    | some (.started now) => { w with calls := w.calls.set i (.read now w.hash) }
    | _ => w
  | .hset i =>
    match w.calls[i]? with
    | some (.read now cur) =>
      { w with hash := some (nextHash cur now), calls := w.calls.set i .written }
    | _ => w
  | .expire i =>
    match w.calls[i]? with
    | some .written =>
      { w with
        deadline := if w.hash.isSome then some (w.now + keyTtlSec) else w.deadline
        calls := w.calls.eraseIdx i
        completed := w.completed + 1 }
    | _ => w
  | .tick seconds =>
    let now := w.now + seconds
    if lapses w now then { w with now := now, hash := none, deadline := none }
    else { w with now := now }

/-- The account at the beginning of a counting window. -/
def World.start (now : Int) (hash : Option LockoutHash) (deadline : Option Int) : World :=
  ⟨now, hash, deadline, [], 0⟩

/-- The clock stays in the counting window that begins at `t₀`. -/
def InWindow (t₀ : Int) (w : World) : Action → Prop
  | .tick seconds => w.now + seconds < t₀ + windowSec
  | _ => True

instance (t₀ : Int) (w : World) : (a : Action) → Decidable (InWindow t₀ w a)
  | .tick seconds => inferInstanceAs (Decidable (w.now + seconds < t₀ + windowSec))
  | .begin => inferInstanceAs (Decidable True)
  | .hgetall _ => inferInstanceAs (Decidable True)
  | .hset _ => inferInstanceAs (Decidable True)
  | .expire _ => inferInstanceAs (Decidable True)

def unchangedSinceRead (w : World) (i : Nat) : Bool :=
  match w.calls[i]? with
  | some (.read _ cur) => w.hash = cur
  | _ => true

/-- A call writes while the hash is still as the call has read it, and the key
does not lapse between the write of a call and its `EXPIRE`. -/
def Undisturbed (w : World) : Action → Prop
  | .hset i => unchangedSinceRead w i = true
  | .tick seconds => lapses w (w.now + seconds) = true → Call.written ∉ w.calls
  | _ => True

instance (w : World) : (a : Action) → Decidable (Undisturbed w a)
  | .hset i => inferInstanceAs (Decidable (unchangedSinceRead w i = true))
  | .tick seconds =>
    inferInstanceAs (Decidable (lapses w (w.now + seconds) = true → Call.written ∉ w.calls))
  | .begin => inferInstanceAs (Decidable True)
  | .hgetall _ => inferInstanceAs (Decidable True)
  | .expire _ => inferInstanceAs (Decidable True)

def CountsEveryFailure (w : World) : Prop :=
  failThreshold ≤ w.completed → (getLockoutState w.hash w.now).isLocked = true

instance (w : World) : Decidable (CountsEveryFailure w) :=
  inferInstanceAs (Decidable (_ → _))

def writes (w : World) : Nat := w.completed + w.calls.count .written

/-- The hash accounts for the `n` writes of the window: it locks the account
beyond the window, or its counter has reached `n`. -/
structure Counted (t₀ : Int) (n : Nat) (h : LockoutHash) : Prop where
  recent : t₀ ≤ h.lastFailAt ∧ h.lastFailAt < t₀ + windowSec
  below : h.failCount < failThreshold
  counted : t₀ + windowSec ≤ h.lockedUntil ∨ n ≤ h.failCount

def Call.Sampled (t₀ : Int) : Call → Prop
  | .started now => t₀ ≤ now ∧ now < t₀ + windowSec
  | .read now _ => t₀ ≤ now ∧ now < t₀ + windowSec
  | .written => True

structure Inv (t₀ : Int) (w : World) : Prop where
  clock : t₀ ≤ w.now ∧ w.now < t₀ + windowSec
  sampled : ∀ c ∈ w.calls, c.Sampled t₀
  counted : 0 < writes w → ∃ h, w.hash = some h ∧ Counted t₀ (writes w) h
  renewed : 0 < w.completed → ∃ d, w.deadline = some d ∧ t₀ + keyTtlSec ≤ d

theorem windowSec_le_cooldown (level : Nat) : windowSec ≤ cooldown level := by
  unfold cooldown
  have hall : ∀ d ∈ ladderSec, windowSec ≤ d := by decide
  cases hd : ladderSec[min level (ladderSec.length - 1)]? with
  | none => decide
  | some d => exact hall d (List.mem_of_getElem? hd)

/-- One failure recorded on top of the writes that the hash accounts for. -/
theorem Counted.nextHash {t₀ now : Int} {n : Nat} {cur : Option LockoutHash}
    (hnow : t₀ ≤ now ∧ now < t₀ + windowSec)
    (hcur : 0 < n → ∃ h, cur = some h ∧ Counted t₀ n h) :
    Counted t₀ (n + 1) (nextHash cur now) := by
  have hcooldown := windowSec_le_cooldown (cur.getD .absent).level
  have hkept : n ≤ (cur.getD .absent).failCount ∨ t₀ + windowSec ≤ (cur.getD .absent).lockedUntil := by
    rcases Nat.eq_zero_or_pos n with rfl | hn
    · exact Or.inl (Nat.zero_le _)
    · obtain ⟨h, rfl, hh⟩ := hcur hn
      exact hh.counted.symm
  have hreset : (cur.getD .absent).lastFailAt ≠ 0 ∧ now - (cur.getD .absent).lastFailAt > windowSec →
      n = 0 := by
    rintro ⟨-, hold⟩
    rcases Nat.eq_zero_or_pos n with hn | hn
    · exact hn
    · obtain ⟨h, rfl, hh⟩ := hcur hn
      have hrecent := hh.recent.1
      simp only [Option.getD_some] at hold
      omega
  unfold Lockout.nextHash
  simp only
  split_ifs with hold hlock hlock
  · exact absurd hlock (by decide)
  · have hn := hreset hold
    exact ⟨hnow, Nat.not_le.1 hlock, Or.inr (Nat.le_of_eq (congrArg (· + 1) hn))⟩
  · have hzero : 0 < failThreshold := by decide
    exact ⟨hnow, hzero, Or.inl (by simp only; omega)⟩
  · refine ⟨hnow, Nat.not_le.1 hlock, ?_⟩
    rcases hkept with hcount | hlocked
    · exact Or.inr (by simp only; omega)
    · exact Or.inl hlocked

theorem Inv.locked {t₀ : Int} {w : World} (hw : Inv t₀ w) : CountsEveryFailure w := by
  intro hcompleted
  have hwrites : failThreshold ≤ writes w := Nat.le_trans hcompleted (Nat.le_add_right _ _)
  obtain ⟨h, hhash, hh⟩ := hw.counted (Nat.lt_of_lt_of_le (by decide) hwrites)
  have hlocked : t₀ + windowSec ≤ h.lockedUntil := by
    rcases hh.counted with hlocked | hcount
    · exact hlocked
    · exact absurd (Nat.lt_of_lt_of_le hh.below (Nat.le_trans hwrites hcount)) (Nat.lt_irrefl _)
  have hclock := hw.clock.2
  simp only [getLockoutState, hhash, Option.getD_some, decide_eq_true_eq]
  omega

theorem count_written_set {calls : List Call} {i : Nat} {c : Call} (hi : calls[i]? = some c)
    (hc : c ≠ .written) (c' : Call) :
    (calls.set i c').count .written = calls.count .written + if c' = .written then 1 else 0 := by
  obtain ⟨hlt, hget⟩ := List.getElem?_eq_some_iff.1 hi
  rw [List.count_set hlt, hget]
  simp [hc]

theorem count_written_eraseIdx {calls : List Call} {i : Nat} (hi : calls[i]? = some .written) :
    calls.count .written = (calls.eraseIdx i).count .written + 1 := by
  obtain ⟨hlt, hget⟩ := List.getElem?_eq_some_iff.1 hi
  have hperm := List.getElem_cons_eraseIdx_perm hlt
  rw [← hperm.count_eq, hget, List.count_cons_self]

section Steps

variable {t₀ : Int} {w : World}

theorem Inv.begin (hw : Inv t₀ w) : Inv t₀ (step w .begin) := by
  have hwrites : writes (step w .begin) = writes w := by
    simp [writes, step]
  refine ⟨hw.clock, ?_, ?_, hw.renewed⟩
  · intro c hc
    rcases List.mem_append.1 hc with hc | hc
    · exact hw.sampled c hc
    · obtain rfl := List.mem_singleton.1 hc
      exact hw.clock
  · rw [hwrites]
    exact hw.counted

theorem Inv.hgetall (hw : Inv t₀ w) (i : Nat) : Inv t₀ (step w (.hgetall i)) := by
  unfold step
  dsimp only
  split
  · next now hi =>
    have hwrites : writes { w with calls := w.calls.set i (.read now w.hash) } = writes w := by
      simp [writes, count_written_set hi (by simp)]
    refine ⟨hw.clock, ?_, ?_, hw.renewed⟩
    · intro c hc
      rcases List.mem_or_eq_of_mem_set hc with hc | rfl
      · exact hw.sampled c hc
      · have hnow : (Call.started now).Sampled t₀ := hw.sampled _ (List.mem_of_getElem? hi)
        exact hnow
    · rw [hwrites]
      exact hw.counted
  · exact hw

theorem Inv.hset (hw : Inv t₀ w) {i : Nat} (hok : Undisturbed w (.hset i)) :
    Inv t₀ (step w (.hset i)) := by
  unfold step
  dsimp only
  split
  · next now cur hi =>
    have hcur : w.hash = cur := by
      simp only [Undisturbed, unchangedSinceRead, hi, decide_eq_true_eq] at hok
      exact hok
    have hwrites : writes { w with hash := some (nextHash cur now), calls := w.calls.set i .written } =
        writes w + 1 := by
      simp [writes, count_written_set hi (by simp), Nat.add_assoc]
    have hnow := hw.sampled _ (List.mem_of_getElem? hi)
    refine ⟨hw.clock, ?_, ?_, hw.renewed⟩
    · intro c hc
      rcases List.mem_or_eq_of_mem_set hc with hc | rfl
      · exact hw.sampled c hc
      · trivial
    · intro _
      rw [hwrites]
      refine ⟨nextHash cur now, rfl, Counted.nextHash hnow ?_⟩
      rw [← hcur]
      exact hw.counted
  · exact hw

theorem Inv.expire (hw : Inv t₀ w) (i : Nat) : Inv t₀ (step w (.expire i)) := by
  unfold step
  dsimp only
  split
  · next hi =>
    have hcount := count_written_eraseIdx hi
    have hpos : 0 < writes w := by
      unfold writes
      omega
    obtain ⟨h, hhash, hh⟩ := hw.counted hpos
    refine ⟨hw.clock, fun c hc => hw.sampled c (List.mem_of_mem_eraseIdx hc), ?_, ?_⟩
    · intro _
      have hwrites : w.completed + 1 + (w.calls.eraseIdx i).count .written = writes w := by
        unfold writes
        omega
      refine ⟨h, hhash, ?_⟩
      show Counted t₀ (w.completed + 1 + (w.calls.eraseIdx i).count .written) h
      rw [hwrites]
      exact hh
    · intro _
      refine ⟨w.now + keyTtlSec, ?_, ?_⟩
      · simp [hhash]
      · exact Int.add_le_add_right hw.clock.1 _
  · exact hw

theorem Inv.tick (hw : Inv t₀ w) {seconds : Nat} (hwindow : InWindow t₀ w (.tick seconds))
    (hok : Undisturbed w (.tick seconds)) : Inv t₀ (step w (.tick seconds)) := by
  have hclock : t₀ ≤ w.now + seconds ∧ w.now + seconds < t₀ + windowSec := by
    have hbefore := hw.clock.1
    exact ⟨by omega, hwindow⟩
  unfold step
  dsimp only
  split
  · next hlapses =>
    have hcompleted : w.completed = 0 := by
      by_contra hne
      obtain ⟨d, hd, hlate⟩ := hw.renewed (Nat.pos_of_ne_zero hne)
      simp only [lapses, hd, Option.any_some, decide_eq_true_eq] at hlapses
      have hday : windowSec ≤ keyTtlSec := by decide
      omega
    have hcount : w.calls.count .written = 0 := List.count_eq_zero.2 (hok hlapses)
    refine ⟨hclock, hw.sampled, ?_, ?_⟩
    · intro hpos
      simp only [writes, hcompleted, hcount] at hpos
      cases hpos
    · intro hpos
      simp only [hcompleted] at hpos
      cases hpos
  · exact ⟨hclock, hw.sampled, hw.counted, hw.renewed⟩

theorem Inv.step (hw : Inv t₀ w) {a : Action} (hwindow : InWindow t₀ w a) (hok : Undisturbed w a) :
    Inv t₀ (step w a) := by
  cases a with
  | begin => exact hw.begin
  | hgetall i => exact hw.hgetall i
  | hset i => exact hw.hset hok
  | expire i => exact hw.expire i
  | tick seconds => exact hw.tick hwindow hok

end Steps

theorem locked_after_threshold (t₀ : Int) (hash : Option LockoutHash) (deadline : Option Int)
    (l : List Action) (hwindow : EachStep step (InWindow t₀) (World.start t₀ hash deadline) l)
    (hok : EachStep step Undisturbed (World.start t₀ hash deadline) l) :
    Always step CountsEveryFailure (World.start t₀ hash deadline) l := by
  have hstart : Inv t₀ (World.start t₀ hash deadline) := by
    refine ⟨⟨Int.le_refl _, ?_⟩, fun c hc => (by cases hc), ?_, ?_⟩
    · simp only [World.start]
      have hpos : 0 < windowSec := by decide
      omega
    · intro hpos
      simp [writes, World.start] at hpos
    · intro hpos
      cases hpos
  have hinv : Always step (Inv t₀) (World.start t₀ hash deadline) l :=
    always_of_eachStep (fun w a hw ha => Inv.step hw ha.1 ha.2) hstart (hwindow.and hok)
  exact hinv.mono fun w hw => hw.locked

def oneFailure : List Action := [.begin, .hgetall 0, .tick 1, .hset 0, .expire 0]

theorem five_failures_lock :
    (EachStep step (InWindow 1000) (World.start 1000 none none)
        (oneFailure ++ oneFailure ++ oneFailure ++ oneFailure ++ oneFailure) ∧
      EachStep step Undisturbed (World.start 1000 none none)
        (oneFailure ++ oneFailure ++ oneFailure ++ oneFailure ++ oneFailure)) ∧
      Always step CountsEveryFailure (World.start 1000 none none)
        (oneFailure ++ oneFailure ++ oneFailure ++ oneFailure ++ oneFailure) :=
  ⟨⟨by decide, by decide⟩, locked_after_threshold 1000 none none _ (by decide) (by decide)⟩

/-- Five guesses at once: every call reads the hash before any of them writes. -/
theorem concurrent_failures_not_counted :
    ¬ ∀ l, EachStep step (InWindow 1000) (World.start 1000 none none) l →
      Always step CountsEveryFailure (World.start 1000 none none) l := by
  intro h
  have hrun := h [.begin, .begin, .begin, .begin, .begin, .hgetall 0, .hgetall 1, .hgetall 2,
    .hgetall 3, .hgetall 4, .hset 0, .hset 1, .hset 2, .hset 3, .hset 4, .expire 4, .expire 3,
    .expire 2, .expire 1, .expire 0] (by decide)
  exact absurd hrun (by decide)

end Lockout

end Vici2
