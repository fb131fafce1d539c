import Mathlib.Logic.Function.Basic
import Vici2.Runs

/-! Caches whose entries are invalidated while calls load and store them. The moments at
which calls, loads and invalidations begin are kept, so that what a call returns can be
compared with the invalidations before it. -/

namespace Vici2.Invalidation

/-- Data, and the moment at which their load began. -/
structure Loaded (δ : Type) where
  data : δ
  begun : Nat
  deriving DecidableEq, Repr

structure Invalidated (κ : Type) where
  key : κ
  begun : Nat
  finished : Nat
  deriving DecidableEq, Repr

structure Answer (κ δ : Type) where
  key : κ
  started : Nat
  loaded : Loaded δ
  deriving DecidableEq, Repr

/-- The steps taken, the invalidations that are finished and the data that were returned. -/
structure Log (κ δ : Type) where
  clock : Nat := 0
  invalidated : List (Invalidated κ) := []
  answers : List (Answer κ δ) := []

namespace Log

variable {κ δ : Type}

def tick (l : Log κ δ) : Log κ δ := { l with clock := l.clock + 1 }

def answer (l : Log κ δ) (key : κ) (started : Nat) (loaded : Loaded δ) : Log κ δ :=
  { l with answers := ⟨key, started, loaded⟩ :: l.answers }

def finish (l : Log κ δ) (key : κ) (begun : Nat) : Log κ δ :=
  { l with invalidated := ⟨key, begun, l.clock⟩ :: l.invalidated }

/-- A load from `begun` on has seen what every finished invalidation of the key is about. -/
def Fresh (l : Log κ δ) (key : κ) (begun : Nat) : Prop :=
  ∀ i ∈ l.invalidated, i.key = key → i.begun ≤ begun

instance [DecidableEq κ] (l : Log κ δ) (key : κ) (begun : Nat) : Decidable (l.Fresh key begun) :=
  inferInstanceAs (Decidable (∀ i ∈ l.invalidated, i.key = key → i.begun ≤ begun))

/-- A call that starts after an invalidation of its key is finished returns no data whose load
began before that invalidation. -/
def Forgets (l : Log κ δ) : Prop :=
  ∀ a ∈ l.answers, ∀ i ∈ l.invalidated,
    i.key = a.key → i.finished < a.started → i.begun ≤ a.loaded.begun

instance [DecidableEq κ] (l : Log κ δ) : Decidable l.Forgets :=
  inferInstanceAs (Decidable (∀ a ∈ l.answers, ∀ i ∈ l.invalidated,
    i.key = a.key → i.finished < a.started → i.begun ≤ a.loaded.begun))

/-- The moments of a log are in order. -/
structure Ordered (l : Log κ δ) : Prop where
  invalidated : ∀ i ∈ l.invalidated, i.begun ≤ i.finished
  answers : ∀ a ∈ l.answers, a.started ≤ l.clock

variable {l : Log κ δ} {key : κ} {started begun : Nat} {loaded : Loaded δ}

theorem Ordered.tick (h : l.Ordered) : l.tick.Ordered where
  invalidated := h.invalidated
  answers a ha := (h.answers a ha).trans (Nat.le_succ _)

theorem Ordered.answer (h : l.Ordered) (hstarted : started ≤ l.clock) :
    (l.answer key started loaded).Ordered where
  invalidated := h.invalidated
  answers a ha := by
    rcases List.mem_cons.1 ha with rfl | ha
    · exact hstarted
    · exact h.answers a ha

theorem Ordered.finish (h : l.Ordered) (hbegun : begun ≤ l.clock) :
    (l.finish key begun).Ordered where
  invalidated i hi := by
    rcases List.mem_cons.1 hi with rfl | hi
    · exact hbegun
    · exact h.invalidated i hi
  answers := h.answers

theorem Forgets.answer (h : l.Forgets)
    (hfresh : ∀ i ∈ l.invalidated, i.key = key → i.finished < started → i.begun ≤ loaded.begun) :
    (l.answer key started loaded).Forgets := by
  intro a ha i hi hkey hlt
  rcases List.mem_cons.1 ha with rfl | ha
  · exact hfresh i hi hkey hlt
  · exact h a ha i hi hkey hlt

/-- Calls of the past have not started after an invalidation that is finished now. -/
theorem Forgets.finish (h : l.Forgets) (hordered : l.Ordered) :
    (l.finish key begun).Forgets := by
  intro a ha i hi hkey hlt
  rcases List.mem_cons.1 hi with rfl | hi
  · have hstarted : a.started ≤ l.clock := hordered.answers a ha
    exact absurd hlt (Nat.not_lt.2 hstarted)
  · exact h a ha i hi hkey hlt

/-- Data that a call has loaded by itself are never older than an invalidation before it. -/
theorem Ordered.own_load (h : l.Ordered) (key : κ) (hstarted : started ≤ begun) :
    ∀ i ∈ l.invalidated, i.key = key → i.finished < started → i.begun ≤ begun := by
  intro i hi _ hlt
  have hbegun : i.begun ≤ i.finished := h.invalidated i hi
  omega

theorem Fresh.finish_of_ne {key' : κ} (h : l.Fresh key begun) (hne : key' ≠ key) (b : Nat) :
    (l.finish key' b).Fresh key begun := by
  intro i hi hkey
  rcases List.mem_cons.1 hi with rfl | hi
  · exact absurd hkey hne
  · exact h i hi hkey

end Log

structure Call (κ : Type) where
  key : κ
  started : Nat
  begun : Option Nat

/-- A cache as its callers see it: a slot for each key, the calls under way with the moments at
which they started and began to load, and the invalidations under way. -/
@[ext]
structure Cache (κ δ ι : Type) where
  log : Log κ δ := {}
  slot : κ → Option (Loaded δ)
  calls : ι → Option (Call κ)
  invalidations : ι → Option (κ × Nat)

inductive Op (κ δ ι : Type)
  | skip
  | get (i : ι) (key : κ)
  | hit (i : ι)
  | load (i : ι)
  | fail (i : ι)
  | store (i : ι) (data : δ)
  | invalidate (j : ι) (key : κ)
  | finish (j : ι)

namespace Cache

variable {κ δ ι : Type}

def empty : Cache κ δ ι where
  slot _ := none
  calls _ := none
  invalidations _ := none

section Step

variable [DecidableEq κ] [DecidableEq ι]

def act (c : Cache κ δ ι) : Op κ δ ι → Cache κ δ ι
  | .skip => c
  | .get i key =>
    match c.calls i with
    | none => { c with calls := Function.update c.calls i (some ⟨key, c.log.clock, none⟩) }
    | some _ => c
  | .hit i =>
    match c.calls i with
    | some ⟨key, started, none⟩ =>
      match c.slot key with
      | some l =>
        { c with
          log := c.log.answer key started l
          calls := Function.update c.calls i none }
      | none => c
    | _ => c
  | .load i =>
    match c.calls i with
    | some ⟨key, started, none⟩ =>
      { c with calls := Function.update c.calls i (some ⟨key, started, some c.log.clock⟩) }
    | _ => c
  | .fail i => { c with calls := Function.update c.calls i none }
  | .store i data =>
    match c.calls i with
    | some ⟨key, started, some begun⟩ =>
      { c with
        log := c.log.answer key started ⟨data, begun⟩
        slot := Function.update c.slot key (some ⟨data, begun⟩)
        calls := Function.update c.calls i none }
    | _ => c
  | .invalidate j key =>
    match c.invalidations j with
    | none =>
      { c with invalidations := Function.update c.invalidations j (some (key, c.log.clock)) }
    | some _ => c
  | .finish j =>
    match c.invalidations j with
    | some (key, begun) =>
      { c with
        log := c.log.finish key begun
        slot := Function.update c.slot key none
        invalidations := Function.update c.invalidations j none }
    | none => c

def step (c : Cache κ δ ι) (op : Op κ δ ι) : Cache κ δ ι :=
  { c.act op with log := (c.act op).log.tick }

/-- The data that are stored are fresh. -/
def StoreOk (c : Cache κ δ ι) : Op κ δ ι → Prop
  | .store i _ => ∀ key started begun, c.calls i = some ⟨key, started, some begun⟩ →
      c.log.Fresh key begun
  | _ => True

end Step

structure Inv (c : Cache κ δ ι) : Prop where
  ordered : c.log.Ordered
  slot : ∀ key l, c.slot key = some l → c.log.Fresh key l.begun
  started : ∀ i call, c.calls i = some call → call.started ≤ c.log.clock
  begun : ∀ i call b, c.calls i = some call → call.begun = some b → call.started ≤ b
  invalidations : ∀ j key b, c.invalidations j = some (key, b) → b ≤ c.log.clock
  forgets : c.log.Forgets

theorem empty_inv : (empty : Cache κ δ ι).Inv where
  ordered := ⟨fun _ hi => (nomatch hi), fun _ ha => (nomatch ha)⟩
  slot _ _ h := nomatch h
  started _ _ h := nomatch h
  begun _ _ _ h := nomatch h
  invalidations _ _ _ h := nomatch h
  forgets _ ha := nomatch ha

variable {c : Cache κ δ ι}

theorem Inv.tick (h : c.Inv) : Inv { c with log := c.log.tick } where
  ordered := h.ordered.tick
  slot := h.slot
  started i call hcall := (h.started i call hcall).trans (Nat.le_succ _)
  begun := h.begun
  invalidations j key b hj := (h.invalidations j key b hj).trans (Nat.le_succ _)
  forgets := h.forgets

theorem Inv.answer (h : c.Inv) (key : κ) (l : Loaded δ) {started : Nat}
    (hstarted : started ≤ c.log.clock)
    (hfresh : ∀ i ∈ c.log.invalidated, i.key = key → i.finished < started → i.begun ≤ l.begun) :
    Inv { c with log := c.log.answer key started l } where
  ordered := h.ordered.answer hstarted
  slot := h.slot
  started := h.started
  begun := h.begun
  invalidations := h.invalidations
  forgets := h.forgets.answer hfresh

theorem Inv.fill [DecidableEq κ] (h : c.Inv) {key : κ} {l : Loaded δ}
    (hfresh : c.log.Fresh key l.begun) :
    Inv { c with slot := Function.update c.slot key (some l) } where
  ordered := h.ordered
  slot key' l' hl' := by
    rcases update_cases (fun y => y = some l') hl' with ⟨rfl, heq⟩ | ⟨-, hold⟩
    · obtain rfl : l = l' := Option.some.inj heq
      exact hfresh
    · exact h.slot key' l' hold
  started := h.started
  begun := h.begun
  invalidations := h.invalidations
  forgets := h.forgets

variable [DecidableEq ι]

theorem Inv.setCall (h : c.Inv) (i : ι) {new : Option (Call κ)}
    (hstarted : ∀ call, new = some call → call.started ≤ c.log.clock)
    (hbegun : ∀ call b, new = some call → call.begun = some b → call.started ≤ b) :
    Inv { c with calls := Function.update c.calls i new } where
  ordered := h.ordered
  slot := h.slot
  started j call hcall := by
    rcases update_some_cases hcall with hnew | hold
    · exact hstarted call hnew
    · exact h.started j call hold
  begun j call b hcall hb := by
    rcases update_some_cases hcall with hnew | hold
    · exact hbegun call b hnew hb
    · exact h.begun j call b hold hb
  invalidations := h.invalidations
  forgets := h.forgets

theorem Inv.dropCall (h : c.Inv) (i : ι) :
    Inv { c with calls := Function.update c.calls i none } :=
  h.setCall i (fun _ hcall => nomatch hcall) (fun _ _ hcall => nomatch hcall)

variable [DecidableEq κ]

theorem Inv.finish (h : c.Inv) {j : ι} {key : κ} {b : Nat}
    (hj : c.invalidations j = some (key, b)) :
    Inv { c with
          log := c.log.finish key b
          slot := Function.update c.slot key none
          invalidations := Function.update c.invalidations j none } where
  ordered := h.ordered.finish (h.invalidations j key b hj)
  slot key' l hl := by
    rcases update_cases (fun y => y = some l) hl with ⟨-, hnone⟩ | ⟨hne, hold⟩
    · cases hnone
    · exact (h.slot key' l hold).finish_of_ne (Ne.symm hne) b
  started := h.started
  begun := h.begun
  invalidations j' key' b' hj' := by
    rcases update_some_cases hj' with hnone | hold
    · cases hnone
    · exact h.invalidations j' key' b' hold
  forgets := h.forgets.finish h.ordered

theorem Inv.get (h : c.Inv) (i : ι) (key : κ) : (c.act (.get i key)).Inv := by
  simp only [Cache.act]
  split
  · refine h.setCall i ?_ ?_
    · intro call heq
      obtain rfl := Option.some.inj heq
      exact le_refl _
    · intro call b heq hb
      obtain rfl := Option.some.inj heq
      cases hb
  · exact h

/-- A slot is fresh for every invalidation, so also for those before the call. -/
theorem Inv.hit (h : c.Inv) (i : ι) : (c.act (.hit i)).Inv := by
  simp only [Cache.act]
  split
  · next key started hcall =>
    split
    · next l hl =>
      have hfresh : c.log.Fresh key l.begun := h.slot key l hl
      have hanswer := h.answer key l (h.started i _ hcall) fun inv hinv hkey _ =>
        hfresh inv hinv hkey
      exact hanswer.dropCall i
    · exact h
  · exact h

theorem Inv.load (h : c.Inv) (i : ι) : (c.act (.load i)).Inv := by
  simp only [Cache.act]
  split
  · next key started hcall =>
    have hstarted : started ≤ c.log.clock := h.started i _ hcall
    refine h.setCall i ?_ ?_
    · intro call heq
      obtain rfl := Option.some.inj heq
      exact hstarted
    · intro call b heq hb
      obtain rfl := Option.some.inj heq
      obtain rfl := Option.some.inj hb
      exact hstarted
  · exact h

theorem Inv.store (h : c.Inv) {i : ι} {data : δ} (hok : c.StoreOk (.store i data)) :
    (c.act (.store i data)).Inv := by
  simp only [Cache.act]
  split
  · next key started begun hcall =>
    have hstarted : started ≤ begun := h.begun i _ begun hcall rfl
    have hfill := h.fill (l := ⟨data, begun⟩) (hok key started begun hcall)
    have hanswer := hfill.answer key ⟨data, begun⟩ (h.started i _ hcall)
      (h.ordered.own_load key hstarted)
    exact hanswer.dropCall i
  · exact h

theorem Inv.invalidate (h : c.Inv) (j : ι) (key : κ) : (c.act (.invalidate j key)).Inv := by
  simp only [Cache.act]
  split
  · refine { h with invalidations := ?_ }
    intro j' key' b hj'
    rcases update_some_cases hj' with hnew | hold
    · obtain ⟨-, rfl⟩ := Prod.mk.inj (Option.some.inj hnew)
      exact le_refl _
    · exact h.invalidations j' key' b hold
  · exact h

theorem Inv.act (h : c.Inv) {op : Op κ δ ι} (hok : c.StoreOk op) : (c.act op).Inv := by
  cases op with
  | skip => exact h
  | get i key => exact h.get i key
  | hit i => exact h.hit i
  | load i => exact h.load i
  | fail i => exact h.dropCall i
  | store i data => exact h.store hok
  | invalidate j key => exact h.invalidate j key
  | finish j =>
    simp only [Cache.act]
    split
    · next key b hj => exact h.finish hj
    · exact h

/-- A cache that stores only fresh data keeps its slots fresh. -/
theorem Inv.step (h : c.Inv) {op : Op κ δ ι} (hok : c.StoreOk op) : (c.step op).Inv :=
  (h.act hok).tick

end Cache

/-! Calls of a cache that keeps phases of its own, of which its callers see when they began
to load. -/

structure Caller (κ φ : Type) where
  key : κ
  started : Nat
  phase : φ

section Callers

variable {κ φ ι : Type} {begun : φ → Option Nat} {gets : ι → Option (Caller κ φ)} {i : ι}
  {call : Caller κ φ}

def Caller.seen (begun : φ → Option Nat) (call : Caller κ φ) : Call κ :=
  ⟨call.key, call.started, begun call.phase⟩

def seenCalls (begun : φ → Option Nat) (gets : ι → Option (Caller κ φ)) : ι → Option (Call κ) :=
  Option.map (Caller.seen begun) ∘ gets

theorem seenCalls_of_none (h : gets i = none) : seenCalls begun gets i = none := by
  simp [seenCalls, h]

theorem seenCalls_of_some (h : gets i = some call) {b : Option Nat}
    (hbegun : begun call.phase = b) :
    seenCalls begun gets i = some ⟨call.key, call.started, b⟩ := by
  simp [seenCalls, h, Caller.seen, hbegun]

variable [DecidableEq ι]

theorem seenCalls_update (new : Option (Caller κ φ)) :
    seenCalls begun (Function.update gets i new) =
      Function.update (seenCalls begun gets) i (new.map (Caller.seen begun)) :=
  Function.comp_update _ _ _ _

/-- A change of phase in which no load begins is not seen. -/
theorem seenCalls_setPhase (h : gets i = some call) {phase : φ}
    (hbegun : begun phase = begun call.phase) :
    seenCalls begun (Function.update gets i (some { call with phase := phase })) =
      seenCalls begun gets := by
  have hsame : seenCalls begun gets i = some ⟨call.key, call.started, begun phase⟩ :=
    seenCalls_of_some h hbegun.symm
  rw [seenCalls_update]
  show Function.update (seenCalls begun gets) i (some ⟨call.key, call.started, begun phase⟩) = _
  rw [← hsame, Function.update_eq_self]

end Callers

end Vici2.Invalidation
