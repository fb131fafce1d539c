import Vici2.Runs
import Mathlib.Algebra.Order.Group.Int
import Mathlib.Data.List.Basic

/-! The circuit breaker of one FreeSWITCH host under the attempts to originate a call on
it. An attempt asks the breaker once, or twice when the host is picked by round-robin, and
records at most one outcome later. -/

namespace Vici2

namespace Esl

inductive CbState
  | cbClosed
  | cbHalfOpen
  | cbOpen
  deriving DecidableEq, Repr

/-- Times and durations are in nanoseconds. -/
structure CircuitBreaker where
  state : CbState
  failures : Int
  threshold : Int
  openDuration : Int
  openAt : Int
  deriving DecidableEq, Repr

def newCircuitBreaker (threshold openDuration : Int) : CircuitBreaker where
  state := .cbClosed
  failures := 0
  threshold := threshold
  openDuration := openDuration
  openAt := 0

namespace CircuitBreaker

def allow (cb : CircuitBreaker) (now : Int) : Bool × CircuitBreaker :=
  match cb.state with
  | .cbClosed => (true, cb)
  | .cbHalfOpen => (true, cb)
  | .cbOpen =>
    if now - cb.openAt ≥ cb.openDuration then (true, { cb with state := .cbHalfOpen })
    else (false, cb)

def recordSuccess (cb : CircuitBreaker) : CircuitBreaker :=
  { cb with failures := 0, state := .cbClosed }

/-- The failure that the breaker counts makes it open. -/
def trips (cb : CircuitBreaker) : Prop :=
  cb.failures + 1 ≥ cb.threshold ∨ cb.state = .cbHalfOpen

instance (cb : CircuitBreaker) : Decidable cb.trips :=
  inferInstanceAs (Decidable (_ ∨ _))

def recordFailure (cb : CircuitBreaker) (now : Int) : CircuitBreaker :=
  if cb.trips then { cb with state := .cbOpen, openAt := now, failures := 0 }
  else { cb with failures := cb.failures + 1 }

/-- `State`, which moves an open breaker on before it answers. -/
def readState (cb : CircuitBreaker) (now : Int) : CbState × CircuitBreaker :=
  if cb.state = .cbOpen ∧ now - cb.openAt ≥ cb.openDuration then
    (.cbHalfOpen, { cb with state := .cbHalfOpen })
  else (cb.state, cb)

end CircuitBreaker

/-- The ways in which `Originate` ends once the breaker has let it through. -/
inductive OriginateEnd
  | fsDead
  | sendFailed
  | bgapiRejected
  | jobOrphaned
  | fsError
  | success
  deriving DecidableEq, Repr

/-- What the end records with the breaker: success, failure or nothing. -/
def OriginateEnd.recorded : OriginateEnd → Option Bool
  | .fsDead => none
  | .sendFailed => some false
  | .bgapiRejected => some false
  | .jobOrphaned => some false
  | .fsError => some false
  | .success => some true

inductive AttemptPhase
  | fresh
  | selected
  | passedOver
  | allowed
  | refused
  | ended
  deriving DecidableEq, Repr

inductive BreakerEvent
  | opened (at_ : Int)
  | allowed (attempt : Nat) (at_ : Int)
  | recorded (attempt : Nat)
  deriving DecidableEq, Repr

/-- The host with its attempts; `history` is what has happened, the latest event first. -/
structure BreakerWorld where
  breaker : CircuitBreaker
  now : Int
  phase : Nat → AttemptPhase
  history : List BreakerEvent

inductive AttemptAction
  | select (attempt : Nat) (ready : Bool)
  | ask (attempt : Nat)
  | finish (attempt : Nat) (how : OriginateEnd)
  | readState
  deriving DecidableEq, Repr

/-- An action, and the time since the one before it. -/
structure BreakerStep where
  elapsed : Nat
  action : AttemptAction
  deriving DecidableEq, Repr

namespace BreakerWorld

def start (threshold openDuration now : Int) : BreakerWorld where
  breaker := newCircuitBreaker threshold openDuration
  now := now
  phase := fun _ => .fresh
  history := []

def setPhase (w : BreakerWorld) (a : Nat) (p : AttemptPhase) : BreakerWorld :=
  { w with phase := fun b => if b = a then p else w.phase b }

/-- `resolveHost` for a request that names no host looks at this one. -/
def select (w : BreakerWorld) (a : Nat) (ready : Bool) : BreakerWorld :=
  if ready then
    let (ok, breaker) := w.breaker.allow w.now
    { w with breaker := breaker }.setPhase a (if ok then .selected else .passedOver)
  else w.setPhase a .passedOver

def ask (w : BreakerWorld) (a : Nat) : BreakerWorld :=
  let (ok, breaker) := w.breaker.allow w.now
  if ok then
    { w with
      breaker := breaker
      history := .allowed a w.now :: w.history }.setPhase a .allowed
  else { w with breaker := breaker }.setPhase a .refused

def succeed (w : BreakerWorld) (a : Nat) : BreakerWorld :=
  { w with
    breaker := w.breaker.recordSuccess
    history := .recorded a :: w.history }

def fail (w : BreakerWorld) (a : Nat) : BreakerWorld :=
  { w with
    breaker := w.breaker.recordFailure w.now
    history :=
      if w.breaker.trips then .opened w.now :: .recorded a :: w.history
      else .recorded a :: w.history }

def finish (w : BreakerWorld) (a : Nat) (how : OriginateEnd) : BreakerWorld :=
  match how.recorded with
  | none => w.setPhase a .ended
  | some true => (w.succeed a).setPhase a .ended
  | some false => (w.fail a).setPhase a .ended

def elapse (w : BreakerWorld) (d : Nat) : BreakerWorld := { w with now := w.now + d }

/-- An attempt does what it can do in its phase; anything else is not a step of it. -/
def act (w : BreakerWorld) : AttemptAction → BreakerWorld
  | .select a ready => if w.phase a = .fresh then w.select a ready else w
  | .ask a => if w.phase a = .fresh ∨ w.phase a = .selected then w.ask a else w
  | .finish a how => if w.phase a = .allowed then w.finish a how else w
  | .readState => { w with breaker := (w.breaker.readState w.now).2 }

def step (w : BreakerWorld) (s : BreakerStep) : BreakerWorld := (w.elapse s.elapsed).act s.action

end BreakerWorld

/-- An attempt allowed from the time `since` on has recorded its outcome. -/
def Answered (since : Int) (l : List BreakerEvent) : Prop :=
  ∃ a t, .allowed a t ∈ l ∧ since ≤ t ∧ .recorded a ∈ l

def BreakerEvent.allowedFrom (since : Int) : BreakerEvent → Bool
  | .allowed _ t => since ≤ t
  | _ => false

/-- After each opening no attempt is allowed for the open duration, and at most one from
then on up to the first outcome of an attempt allowed then. -/
def Guarded (openDuration : Int) (history : List BreakerEvent) : Prop :=
  ∀ later t earlier, history = later ++ .opened t :: earlier →
    (∀ a u, .allowed a u ∈ later → t + openDuration ≤ u) ∧
    ∀ rest upto, later = rest ++ upto → ¬ Answered (t + openDuration) upto →
      (upto.filter (BreakerEvent.allowedFrom (t + openDuration))).length ≤ 1

/-- The attempts allowed since the breaker opened last. -/
def probes : List BreakerEvent → List Nat
  | [] => []
  | .opened _ :: _ => []
  | .allowed a _ :: l => a :: probes l
  | .recorded _ :: l => probes l

/-- Nobody asks while a half-open breaker has let an attempt through, and only that attempt
records its outcome then. An attempt from before the opening does not record a success
until the breaker has closed. -/
def StepOk (w : BreakerWorld) (s : BreakerStep) : Prop :=
  match s.action with
  | .ask a => w.phase a = .fresh ∨ w.phase a = .selected →
      w.breaker.state = .cbHalfOpen → probes w.history = []
  | .finish a how => w.phase a = .allowed →
      match how.recorded with
      | none => True
      | some true => w.breaker.state = .cbClosed ∨ a ∈ probes w.history
      | some false =>
        w.breaker.state = .cbHalfOpen → probes w.history = [] ∨ a ∈ probes w.history
  | _ => True

theorem CircuitBreaker.allow_cases (cb : CircuitBreaker) (now : Int) :
    (cb.state = .cbClosed ∧ cb.allow now = (true, cb)) ∨
    ((cb.state = .cbHalfOpen ∨ cb.state = .cbOpen ∧ cb.openAt + cb.openDuration ≤ now) ∧
      cb.allow now = (true, { cb with state := .cbHalfOpen })) ∨
    (cb.state = .cbOpen ∧ cb.allow now = (false, cb)) := by
  cases hstate : cb.state with
  | cbClosed => exact Or.inl ⟨rfl, by simp [allow, hstate]⟩
  | cbHalfOpen =>
    have hsame : { cb with state := .cbHalfOpen } = cb := by rw [← hstate]
    exact Or.inr (Or.inl ⟨Or.inl rfl, by rw [hsame]; simp [allow, hstate]⟩)
  | cbOpen =>
    by_cases hover : now - cb.openAt ≥ cb.openDuration
    · exact Or.inr (Or.inl ⟨Or.inr ⟨rfl, by omega⟩, by simp [allow, hstate, hover]⟩)
    · exact Or.inr (Or.inr ⟨rfl, by simp [allow, hstate, hover]⟩)

theorem CircuitBreaker.readState_cases (cb : CircuitBreaker) (now : Int) :
    (cb.readState now).2 = cb ∨
    cb.state = .cbOpen ∧ cb.openAt + cb.openDuration ≤ now ∧
      (cb.readState now).2 = { cb with state := .cbHalfOpen } := by
  by_cases h : cb.state = .cbOpen ∧ now - cb.openAt ≥ cb.openDuration
  · exact Or.inr ⟨h.1, by omega, by simp [readState, h]⟩
  · exact Or.inl (by simp only [readState, if_neg h])

def attempts (l : List BreakerEvent) : List Nat :=
  l.filterMap fun
    | .allowed a _ => some a
    | _ => none

theorem exists_allowed_of_mem_attempts {l : List BreakerEvent} {a : Nat} (h : a ∈ attempts l) :
    ∃ t, .allowed a t ∈ l := by
  obtain ⟨e, he, hsome⟩ := List.mem_filterMap.1 h
  cases e with
  | allowed b t =>
    obtain rfl : b = a := Option.some.inj hsome
    exact ⟨t, he⟩
  | opened t => cases hsome
  | recorded b => cases hsome

theorem length_allowedFrom_le (since : Int) (l : List BreakerEvent) :
    (l.filter (BreakerEvent.allowedFrom since)).length ≤ (attempts l).length := by
  induction l with
  | nil => simp
  | cons e l ih =>
    cases e with
    | opened t => simpa [BreakerEvent.allowedFrom, attempts] using ih
    | recorded a => simpa [BreakerEvent.allowedFrom, attempts] using ih
    | allowed a t =>
      have hcons : attempts (.allowed a t :: l) = a :: attempts l := by simp [attempts]
      rw [hcons, List.length_cons, List.filter_cons]
      split
      · simpa using ih
      · omega

theorem Answered.cons {since : Int} {l : List BreakerEvent} (h : Answered since l)
    (e : BreakerEvent) : Answered since (e :: l) := by
  obtain ⟨a, t, hallowed, ht, hrecorded⟩ := h
  exact ⟨a, t, List.mem_cons_of_mem _ hallowed, ht, List.mem_cons_of_mem _ hrecorded⟩

/-- `P` holds of every opening in the history with the events that came later. -/
def AtOpenings (P : List BreakerEvent → Int → Prop) (history : List BreakerEvent) : Prop :=
  ∀ later t earlier, history = later ++ .opened t :: earlier → P later t

theorem atOpenings_cons {P : List BreakerEvent → Int → Prop} {e : BreakerEvent}
    {history : List BreakerEvent} (hfirst : ∀ t, e = .opened t → P [] t)
    (hrest : AtOpenings (fun later t => P (e :: later) t) history) :
    AtOpenings P (e :: history) := by
  intro later t earlier h
  cases later with
  | nil =>
    obtain ⟨rfl, -⟩ := List.cons.inj h
    exact hfirst t rfl
  | cons e' later =>
    obtain ⟨rfl, hhistory⟩ := List.cons.inj h
    exact hrest later t earlier hhistory

theorem AtOpenings.mono {P Q : List BreakerEvent → Int → Prop} {history : List BreakerEvent}
    (h : AtOpenings P history) (hPQ : ∀ later t, P later t → Q later t) :
    AtOpenings Q history :=
  fun later t earlier hsplit => hPQ later t (h later t earlier hsplit)

/-- `Guarded` at one opening. -/
def GuardedAt (openDuration : Int) (later : List BreakerEvent) (t : Int) : Prop :=
  (∀ a u, .allowed a u ∈ later → t + openDuration ≤ u) ∧
  ∀ rest upto, later = rest ++ upto → ¬ Answered (t + openDuration) upto →
    (upto.filter (BreakerEvent.allowedFrom (t + openDuration))).length ≤ 1

theorem guardedAt_nil (D t : Int) : GuardedAt D [] t := by
  constructor
  · intro a u h
    cases h
  · intro rest upto h hanswered
    obtain ⟨-, rfl⟩ := List.append_eq_nil_iff.1 h.symm
    simp

theorem GuardedAt.cons {D t : Int} {later : List BreakerEvent} (h : GuardedAt D later t)
    {e : BreakerEvent} (hclosed : ∀ a u, e = .allowed a u → t + D ≤ u)
    (hone : ¬ Answered (t + D) (e :: later) →
      ((e :: later).filter (BreakerEvent.allowedFrom (t + D))).length ≤ 1) :
    GuardedAt D (e :: later) t := by
  constructor
  · intro a u hmem
    rcases List.mem_cons.1 hmem with heq | hmem
    · exact hclosed a u heq.symm
    · exact h.1 a u hmem
  · intro rest upto hsplit hanswered
    cases rest with
    | nil =>
      obtain rfl : e :: later = upto := hsplit
      exact hone hanswered
    | cons e' rest =>
      obtain ⟨-, hsplit⟩ := List.cons.inj hsplit
      exact h.2 rest upto hsplit hanswered

theorem GuardedAt.cons_other {D t : Int} {later : List BreakerEvent} (h : GuardedAt D later t)
    {e : BreakerEvent} (he : ∀ a u, e ≠ .allowed a u) : GuardedAt D (e :: later) t := by
  apply h.cons
  · intro a u heq
    exact absurd heq (he a u)
  · intro hanswered
    have hold := h.2 [] later rfl fun hold => hanswered (hold.cons e)
    have hfilter : (e :: later).filter (BreakerEvent.allowedFrom (t + D)) =
        later.filter (BreakerEvent.allowedFrom (t + D)) := by
      cases e with
      | allowed a u => exact absurd rfl (he a u)
      | opened u => simp [BreakerEvent.allowedFrom]
      | recorded a => simp [BreakerEvent.allowedFrom]
    rw [hfilter]
    exact hold

theorem GuardedAt.cons_allowed {D t now : Int} {later : List BreakerEvent}
    (h : GuardedAt D later t) (a : Nat) (hover : t + D ≤ now)
    (hfirst : Answered (t + D) later ∨ attempts later = []) :
    GuardedAt D (.allowed a now :: later) t := by
  apply h.cons
  · intro b u heq
    cases heq
    exact hover
  · intro hanswered
    rcases hfirst with hold | hnone
    · exact absurd (hold.cons _) hanswered
    · have hlength := length_allowedFrom_le (t + D) (.allowed a now :: later)
      have hcons : attempts (.allowed a now :: later) = [a] := by
        rw [← hnone]
        simp [attempts]
      rw [hcons] at hlength
      exact hlength

/-- What the breaker knows of the history: closed, every opening is answered; else the
attempts that wait for an answer to one are those allowed since the last. -/
structure BreakerInv (D : Int) (cb : CircuitBreaker) (now : Int)
    (history : List BreakerEvent) : Prop where
  duration : cb.openDuration = D
  opened_le : ∀ t, .opened t ∈ history → t ≤ cb.openAt ∧ t ≤ now
  allowed_le : ∀ a u, .allowed a u ∈ history → u ≤ now
  elapsed : cb.state = .cbHalfOpen → cb.openAt + D ≤ now
  quiet : cb.state = .cbOpen → probes history = []
  closed : cb.state = .cbClosed → AtOpenings (fun later t => Answered (t + D) later) history
  waiting : cb.state ≠ .cbClosed →
    AtOpenings (fun later t => Answered (t + D) later ∨ attempts later = probes history) history
  guarded : AtOpenings (GuardedAt D) history

variable {D now : Int} {cb : CircuitBreaker} {history : List BreakerEvent}

theorem breakerInv_start (threshold D now : Int) :
    BreakerInv D (newCircuitBreaker threshold D) now [] := by
  have hnone : ∀ P, AtOpenings P [] := by
    intro P later t earlier h
    simp at h
  exact {
    duration := rfl
    opened_le := fun t h => absurd h List.not_mem_nil
    allowed_le := fun a u h => absurd h List.not_mem_nil
    elapsed := fun h => by cases h
    quiet := fun h => by cases h
    closed := fun _ => hnone _
    waiting := fun _ => hnone _
    guarded := hnone _ }

theorem BreakerInv.elapse (h : BreakerInv D cb now history) (d : Nat) :
    BreakerInv D cb (now + d) history where
  duration := h.duration
  opened_le t ht := ⟨(h.opened_le t ht).1, by have := (h.opened_le t ht).2; omega⟩
  allowed_le a u hu := by have := h.allowed_le a u hu; omega
  elapsed hstate := by have := h.elapsed hstate; omega
  quiet := h.quiet
  closed := h.closed
  waiting := h.waiting
  guarded := h.guarded

theorem BreakerInv.halfOpen (h : BreakerInv D cb now history) (hopen : cb.state = .cbOpen)
    (hover : cb.openAt + cb.openDuration ≤ now) :
    BreakerInv D { cb with state := .cbHalfOpen } now history where
  duration := h.duration
  opened_le := h.opened_le
  allowed_le := h.allowed_le
  elapsed _ := by rw [← h.duration]; exact hover
  quiet hstate := by cases hstate
  closed hstate := by cases hstate
  waiting _ := h.waiting (by rw [hopen]; decide)
  guarded := h.guarded

theorem BreakerInv.allow (h : BreakerInv D cb now history) :
    BreakerInv D (cb.allow now).2 now history := by
  rcases cb.allow_cases now with ⟨-, heq⟩ | ⟨hstate, heq⟩ | ⟨-, heq⟩
  · rw [heq]
    exact h
  · rw [heq]
    rcases hstate with hhalf | ⟨hopen, hover⟩
    · have hsame : { cb with state := .cbHalfOpen } = cb := by rw [← hhalf]
      rw [hsame]
      exact h
    · exact h.halfOpen hopen hover
  · rw [heq]
    exact h

theorem BreakerInv.readState (h : BreakerInv D cb now history) :
    BreakerInv D (cb.readState now).2 now history := by
  rcases cb.readState_cases now with heq | ⟨hopen, hover, heq⟩
  · rw [heq]
    exact h
  · rw [heq]
    exact h.halfOpen hopen hover

theorem opened_of_mem_cons {e : BreakerEvent} (he : ∀ t, e ≠ .opened t) {t : Int}
    (h : .opened t ∈ e :: history) : .opened t ∈ history := by
  rcases List.mem_cons.1 h with heq | h
  · exact absurd heq.symm (he t)
  · exact h

theorem BreakerInv.opened_le_cons (h : BreakerInv D cb now history) {e : BreakerEvent}
    (he : ∀ t, e ≠ .opened t) (t : Int) (ht : .opened t ∈ e :: history) :
    t ≤ cb.openAt ∧ t ≤ now :=
  h.opened_le t (opened_of_mem_cons he ht)

theorem BreakerInv.allowed_le_cons (h : BreakerInv D cb now history) (a b : Nat) (u : Int)
    (hu : .allowed b u ∈ .allowed a now :: history) : u ≤ now := by
  rcases List.mem_cons.1 hu with heq | hu
  · cases heq
    exact Int.le_refl _
  · exact h.allowed_le b u hu

theorem BreakerInv.allowed_closed (h : BreakerInv D cb now history)
    (hclosed : cb.state = .cbClosed) (a : Nat) :
    BreakerInv D cb now (.allowed a now :: history) := by
  have hanswered := h.closed hclosed
  exact {
    duration := h.duration
    opened_le := h.opened_le_cons (by simp)
    allowed_le := h.allowed_le_cons a
    elapsed := fun hstate => by rw [hclosed] at hstate; cases hstate
    quiet := fun hstate => by rw [hclosed] at hstate; cases hstate
    closed := fun _ => atOpenings_cons (by simp)
      (hanswered.mono fun later t hlater => hlater.cons _)
    waiting := fun hstate => absurd hclosed hstate
    guarded := by
      refine atOpenings_cons (by simp) ?_
      intro later t earlier hsplit
      have hlater := hanswered later t earlier hsplit
      have hover : t + D ≤ now := by
        obtain ⟨b, u, hallowed, hu, -⟩ := hlater
        have hnow := h.allowed_le b u (by rw [hsplit]; exact List.mem_append_left _ hallowed)
        omega
      exact (h.guarded later t earlier hsplit).cons_allowed a hover (Or.inl hlater) }

/-- The first attempt that is allowed after the open duration. -/
theorem BreakerInv.allowed_probe (h : BreakerInv D cb now history)
    (hover : cb.openAt + D ≤ now) (hstate : cb.state ≠ .cbClosed) (hnone : probes history = [])
    (a : Nat) :
    BreakerInv D { cb with state := .cbHalfOpen } now (.allowed a now :: history) := by
  have hwaiting := h.waiting hstate
  rw [hnone] at hwaiting
  exact {
    duration := h.duration
    opened_le := h.opened_le_cons (by simp)
    allowed_le := h.allowed_le_cons a
    elapsed := fun _ => hover
    quiet := fun hopen => by cases hopen
    closed := fun hclosed => by cases hclosed
    waiting := by
      intro _
      refine atOpenings_cons (by simp) (hwaiting.mono ?_)
      intro later t hlater
      rcases hlater with hanswered | hempty
      · exact Or.inl (hanswered.cons _)
      · right
        have hattempts : attempts (.allowed a now :: later) = a :: attempts later := by
          simp [attempts]
        rw [hattempts, hempty, probes, hnone]
    guarded := by
      refine atOpenings_cons (by simp) ?_
      intro later t earlier hsplit
      have hlater := hwaiting later t earlier hsplit
      have ht := h.opened_le t (by rw [hsplit]; simp)
      exact (h.guarded later t earlier hsplit).cons_allowed a (by omega) hlater }

/-- An outcome answers the openings that were waiting for its attempt. -/
theorem BreakerInv.answered_of_mem_probes (h : BreakerInv D cb now history)
    (hstate : cb.state ≠ .cbClosed) {a : Nat} (ha : a ∈ probes history) :
    AtOpenings (fun later t => Answered (t + D) (.recorded a :: later)) history := by
  intro later t earlier hsplit
  rcases h.waiting hstate later t earlier hsplit with hanswered | hattempts
  · exact hanswered.cons _
  · rw [← hattempts] at ha
    obtain ⟨u, hallowed⟩ := exists_allowed_of_mem_attempts ha
    have hu := (h.guarded later t earlier hsplit).1 a u hallowed
    exact ⟨a, u, List.mem_cons_of_mem _ hallowed, hu, List.mem_cons_self⟩

theorem BreakerInv.recorded_guarded (h : BreakerInv D cb now history) (a : Nat) :
    AtOpenings (GuardedAt D) (.recorded a :: history) := by
  refine atOpenings_cons (by simp) (h.guarded.mono ?_)
  intro later t hlater
  exact hlater.cons_other (by simp)

theorem BreakerInv.recordSuccess (h : BreakerInv D cb now history) {a : Nat}
    (hok : cb.state = .cbClosed ∨ a ∈ probes history) :
    BreakerInv D cb.recordSuccess now (.recorded a :: history) := by
  have hanswered :
      AtOpenings (fun later t => Answered (t + D) (.recorded a :: later)) history := by
    by_cases hclosed : cb.state = .cbClosed
    · exact (h.closed hclosed).mono fun later t hlater => hlater.cons _
    · exact h.answered_of_mem_probes hclosed (hok.resolve_left hclosed)
  exact {
    duration := h.duration
    opened_le := h.opened_le_cons (by simp)
    allowed_le := fun b u hu => h.allowed_le b u (by simpa using hu)
    elapsed := fun hstate => by cases hstate
    quiet := fun hstate => by cases hstate
    closed := fun _ => atOpenings_cons (by simp) hanswered
    waiting := fun hstate => absurd rfl hstate
    guarded := h.recorded_guarded a }

/-- After an outcome that the condition admits, an opening is answered or has had no
attempt. -/
theorem BreakerInv.settled (h : BreakerInv D cb now history) {a : Nat}
    (hok : cb.state = .cbHalfOpen → probes history = [] ∨ a ∈ probes history) :
    AtOpenings (fun later t => Answered (t + D) (.recorded a :: later) ∨ attempts later = [])
      history := by
  have hempty : cb.state ≠ .cbClosed → probes history = [] →
      AtOpenings (fun later t => Answered (t + D) (.recorded a :: later) ∨ attempts later = [])
        history := by
    intro hstate hnone
    have hwaiting := h.waiting hstate
    rw [hnone] at hwaiting
    exact hwaiting.mono fun later t hlater => hlater.imp_left fun hanswered => hanswered.cons _
  cases hstate : cb.state with
  | cbClosed => exact (h.closed hstate).mono fun later t hlater => Or.inl (hlater.cons _)
  | cbOpen => exact hempty (by rw [hstate]; decide) (h.quiet hstate)
  | cbHalfOpen =>
    rcases hok hstate with hnone | ha
    · exact hempty (by rw [hstate]; decide) hnone
    · exact (h.answered_of_mem_probes (by rw [hstate]; decide) ha).mono
        fun later t hlater => Or.inl hlater

theorem BreakerInv.trip (h : BreakerInv D cb now history) {a : Nat}
    (hok : cb.state = .cbHalfOpen → probes history = [] ∨ a ∈ probes history) :
    BreakerInv D { cb with state := .cbOpen, openAt := now, failures := 0 } now
      (.opened now :: .recorded a :: history) where
  duration := h.duration
  opened_le := by
    intro t ht
    have hnow : t ≤ now := by
      rcases List.mem_cons.1 ht with heq | ht
      · cases heq
        exact Int.le_refl _
      · exact (h.opened_le t (opened_of_mem_cons (by simp) ht)).2
    exact ⟨hnow, hnow⟩
  allowed_le b u hu := h.allowed_le b u (by simpa using hu)
  elapsed hstate := by cases hstate
  quiet _ := rfl
  closed hstate := by cases hstate
  waiting := by
    intro _
    refine atOpenings_cons (fun t _ => Or.inr rfl) (atOpenings_cons (by simp) ?_)
    refine (h.settled hok).mono ?_
    intro later t hlater
    rcases hlater with hanswered | hnone
    · exact Or.inl (hanswered.cons _)
    · exact Or.inr (by simpa [attempts, probes] using hnone)
  guarded := by
    refine atOpenings_cons (fun t _ => guardedAt_nil D t) ?_
    exact (h.recorded_guarded a).mono fun later t hlater => hlater.cons_other (by simp)

theorem BreakerInv.count (h : BreakerInv D cb now history) {a : Nat} (htrips : ¬ cb.trips) :
    BreakerInv D { cb with failures := cb.failures + 1 } now (.recorded a :: history) where
  duration := h.duration
  opened_le := h.opened_le_cons (by simp)
  allowed_le b u hu := h.allowed_le b u (by simpa using hu)
  elapsed hstate := absurd (Or.inr hstate) htrips
  quiet hstate := h.quiet hstate
  closed hstate := atOpenings_cons (by simp)
    ((h.closed hstate).mono fun later t hlater => hlater.cons _)
  waiting hstate := by
    refine atOpenings_cons (by simp) ((h.waiting hstate).mono ?_)
    intro later t hlater
    rcases hlater with hanswered | hattempts
    · exact Or.inl (hanswered.cons _)
    · exact Or.inr (by simpa [attempts, probes] using hattempts)
  guarded := h.recorded_guarded a

def BreakerWorld.Inv (D : Int) (w : BreakerWorld) : Prop :=
  BreakerInv D w.breaker w.now w.history

variable {w : BreakerWorld}

theorem BreakerWorld.Inv.fail (h : w.Inv D) {a : Nat}
    (hok : w.breaker.state = .cbHalfOpen → probes w.history = [] ∨ a ∈ probes w.history) :
    (w.fail a).Inv D := by
  by_cases htrips : w.breaker.trips
  · have htrip := BreakerInv.trip h hok
    simpa only [Inv, BreakerWorld.fail, CircuitBreaker.recordFailure, if_pos htrips] using htrip
  · have hcount := BreakerInv.count (a := a) h htrips
    simpa only [Inv, BreakerWorld.fail, CircuitBreaker.recordFailure, if_neg htrips] using hcount

theorem BreakerWorld.Inv.select (h : w.Inv D) (a : Nat) (ready : Bool) :
    (w.select a ready).Inv D := by
  cases ready with
  | false => exact h
  | true => exact BreakerInv.allow h

theorem BreakerWorld.Inv.ask (h : w.Inv D) {a : Nat}
    (hok : w.breaker.state = .cbHalfOpen → probes w.history = []) : (w.ask a).Inv D := by
  unfold BreakerWorld.ask
  rcases w.breaker.allow_cases w.now with ⟨hclosed, heq⟩ | ⟨hstate, heq⟩ | ⟨-, heq⟩
  · rw [heq]
    exact BreakerInv.allowed_closed h hclosed a
  · rw [heq]
    rcases hstate with hhalf | ⟨hopen, hover⟩
    · exact BreakerInv.allowed_probe h (h.elapsed hhalf) (by rw [hhalf]; decide) (hok hhalf) a
    · have hover' : w.breaker.openAt + D ≤ w.now := by
        rw [← h.duration]
        exact hover
      exact BreakerInv.allowed_probe h hover' (by rw [hopen]; decide) (h.quiet hopen) a
  · rw [heq]
    exact h

theorem BreakerWorld.Inv.step (h : w.Inv D) {s : BreakerStep}
    (hok : StepOk (w.elapse s.elapsed) s) : (w.step s).Inv D := by
  have helapsed : (w.elapse s.elapsed).Inv D := BreakerInv.elapse h s.elapsed
  unfold BreakerWorld.step
  unfold StepOk at hok
  cases haction : s.action with
  | select a ready =>
    simp only [BreakerWorld.act]
    split
    · exact helapsed.select a ready
    · exact helapsed
  | ask a =>
    rw [haction] at hok
    simp only [BreakerWorld.act]
    split
    · rename_i hphase
      exact helapsed.ask (hok hphase)
    · exact helapsed
  | finish a how =>
    rw [haction] at hok
    simp only [BreakerWorld.act]
    split
    · rename_i hphase
      have hrecord := hok hphase
      unfold BreakerWorld.finish
      cases hhow : how.recorded with
      | none => exact helapsed
      | some good =>
        rw [hhow] at hrecord
        cases good with
        | true => exact BreakerInv.recordSuccess helapsed hrecord
        | false => exact helapsed.fail hrecord
    · exact helapsed
  | readState => exact BreakerInv.readState helapsed

/-- Two attempts allowed since an opening that neither has answered. -/
theorem not_guarded_of_two {later : List BreakerEvent} {t : Int} {earlier : List BreakerEvent}
    (hsplit : history = later ++ .opened t :: earlier) (htwo : 2 ≤ (attempts later).length)
    (hnone : ∀ a ∈ attempts later, .recorded a ∉ later) : ¬ Guarded D history := by
  intro hguarded
  obtain ⟨hfrom, hone⟩ := hguarded later t earlier hsplit
  have hanswered : ¬ Answered (t + D) later := by
    rintro ⟨a, u, hallowed, -, hrecorded⟩
    exact hnone a (List.mem_filterMap.2 ⟨_, hallowed, rfl⟩) hrecorded
  have hlength := hone [] later rfl hanswered
  have hall : ∀ l : List BreakerEvent, (∀ a u, .allowed a u ∈ l → t + D ≤ u) →
      (attempts l).length = (l.filter (BreakerEvent.allowedFrom (t + D))).length := by
    intro l
    induction l with
    | nil => intro _; rfl
    | cons e l ih =>
      intro hl
      have hrest := ih fun a u hmem => hl a u (List.mem_cons_of_mem _ hmem)
      cases e with
      | opened u => simpa [attempts, BreakerEvent.allowedFrom] using hrest
      | recorded a => simpa [attempts, BreakerEvent.allowedFrom] using hrest
      | allowed a u =>
        have hu := hl a u List.mem_cons_self
        simpa [attempts, BreakerEvent.allowedFrom, hu] using hrest
  rw [← hall later hfrom] at hlength
  omega

theorem BreakerWorld.Inv.run (h : w.Inv D) {steps : List BreakerStep}
    (hsteps : EachStep BreakerWorld.step StepOk w steps) :
    Always BreakerWorld.step (BreakerWorld.Inv D) w steps :=
  always_of_eachStep (fun _ _ hw hok => BreakerWorld.Inv.step hw hok) h hsteps

/-- A run whose steps meet the condition keeps the guarantee throughout. -/
theorem breaker_guards (threshold openDuration now : Int) (steps : List BreakerStep)
    (h : EachStep BreakerWorld.step StepOk (.start threshold openDuration now) steps) :
    Always BreakerWorld.step (fun w => Guarded openDuration w.history)
      (.start threshold openDuration now) steps := by
  have hstart : (BreakerWorld.start threshold openDuration now).Inv openDuration :=
    breakerInv_start threshold openDuration now
  exact (hstart.run h).mono fun w hw => BreakerInv.guarded hw

/-- Three failures open the breaker; half a minute later one attempt passes, and once it has
succeeded another. -/
theorem breaker_guards_probe :
    Always BreakerWorld.step (fun w => Guarded 30000000000 w.history)
      (.start 3 30000000000 0)
      [⟨0, .ask 0⟩, ⟨1, .finish 0 .fsError⟩, ⟨1, .ask 1⟩, ⟨1, .finish 1 .jobOrphaned⟩,
        ⟨1, .ask 2⟩, ⟨1, .finish 2 .bgapiRejected⟩, ⟨1, .ask 3⟩, ⟨30000000000, .select 4 true⟩,
        ⟨1, .ask 4⟩, ⟨1, .finish 4 .success⟩, ⟨1, .ask 5⟩, ⟨1, .ask 6⟩] :=
  breaker_guards 3 30000000000 0 _ (by
    simp [EachStep, StepOk, BreakerWorld.step, BreakerWorld.elapse, BreakerWorld.act,
      BreakerWorld.start, BreakerWorld.ask, BreakerWorld.finish, BreakerWorld.fail,
      BreakerWorld.succeed, BreakerWorld.select, BreakerWorld.setPhase, newCircuitBreaker,
      CircuitBreaker.allow, CircuitBreaker.recordFailure, CircuitBreaker.recordSuccess,
      CircuitBreaker.trips, OriginateEnd.recorded, probes])

/-- The steps of two attempts that find the breaker half-open. -/
def twoProbes : List BreakerStep :=
  [⟨0, .ask 0⟩, ⟨1, .finish 0 .fsError⟩, ⟨1, .ask 1⟩, ⟨1, .finish 1 .fsError⟩,
    ⟨1, .ask 2⟩, ⟨1, .finish 2 .fsError⟩, ⟨30000000000, .ask 3⟩, ⟨1, .ask 4⟩]

theorem twoProbes_unguarded :
    ¬ Always BreakerWorld.step (fun w => Guarded 30000000000 w.history)
      (.start 3 30000000000 0) twoProbes := by
  intro h
  have hhistory : (twoProbes.foldl BreakerWorld.step (.start 3 30000000000 0)).history =
      [.allowed 4 30000000006, .allowed 3 30000000005] ++
        .opened 5 :: [.recorded 2, .allowed 2 4, .recorded 1, .allowed 1 2, .recorded 0,
          .allowed 0 0] := by
    decide +kernel
  have hguarded := h.last
  refine not_guarded_of_two hhistory (by decide) ?_ hguarded
  intro a _ hmem
  simp at hmem

end Esl

end Vici2
