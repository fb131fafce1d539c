import Mathlib.Data.List.Basic
import Mathlib.Data.List.Lookmap
import Mathlib.Data.List.Pairwise

/-! A cache of bounded size that evicts what was not used for longest. The cache is a list of
entries, the most recent first; what it should hold is told by the history of accesses. -/

namespace Vici2

namespace Lru

/-- An access of the cache. Histories have the most recent access first. -/
inductive Access (α β : Type*)
  | get (key : α)
  | set (key : α) (value : β)

variable {α β : Type*} [DecidableEq α]

def Access.key : Access α β → α
  | .get key => key
  | .set key _ => key

section Cache

variable (cap : Nat) (l : List (α × β))

def find (k : α) : Option β := (l.find? fun e => e.1 = k).map Prod.snd

def touch (k : α) (v : β) : List (α × β) := (k, v) :: l.filter fun e => e.1 ≠ k

/-- A new entry takes the place of the last one when the cache is full. -/
def push (k : α) (v : β) : List (α × β) := (k, v) :: if cap ≤ l.length then l.dropLast else l

def step : Access α β → List (α × β)
  | .get k =>
    match find l k with
    | none => l
    | some v => touch l k v
  | .set k v =>
    match find l k with
    | none => push cap l k v
    | some _ => touch l k v

def answer : Access α β → Option β
  | .get k => find l k
  | .set _ _ => none

end Cache

def lastSet : List (Access α β) → α → Option β
  | [], _ => none
  | .get _ :: h, k => lastSet h k
  | .set k' v :: h, k => if k' = k then some v else lastSet h k

/-- The number of accesses since the last one of a key. -/
def age (h : List (Access α β)) (k : α) : Nat := (h.map Access.key).idxOf k

/-- The entries are those that were set last, each used after the ones behind it. -/
structure Recent (cap : Nat) (h : List (Access α β)) (l : List (α × β)) : Prop where
  value : ∀ e ∈ l, lastSet h e.1 = some e.2
  order : l.Pairwise fun e e' => age h e.1 < age h e'.1
  size : l.length ≤ cap

variable {cap : Nat} {h : List (Access α β)} {l : List (α × β)} {k : α} {v : β}

theorem find_eq_some (hf : find l k = some v) : (k, v) ∈ l := by
  obtain ⟨e, he, rfl⟩ := Option.map_eq_some_iff.1 hf
  have hkey : e.1 = k := by simpa using List.find?_some he
  rw [← hkey]
  exact List.mem_of_find?_eq_some he

theorem find_eq_none : find l k = none ↔ ∀ e ∈ l, e.1 ≠ k := by
  unfold find
  rw [Option.map_eq_none_iff, List.find?_eq_none]
  simp

theorem age_cons_self (a : Access α β) : age (a :: h) a.key = 0 := by
  unfold age
  rw [List.map_cons, List.idxOf_cons_self]

theorem age_cons_of_ne {a : Access α β} (hk : k ≠ a.key) : age (a :: h) k = age h k + 1 := by
  unfold age
  rw [List.map_cons, List.idxOf_cons_ne _ hk.symm]

/-- Where an access is of none of the keys, they keep their order. -/
theorem order_cons {a : Access α β} (hl : ∀ e ∈ l, e.1 ≠ a.key)
    (ho : l.Pairwise fun e e' => age h e.1 < age h e'.1) :
    l.Pairwise fun e e' => age (a :: h) e.1 < age (a :: h) e'.1 := by
  refine ho.imp_of_mem ?_
  intro e e' he he' hlt
  rw [age_cons_of_ne (hl e he), age_cons_of_ne (hl e' he')]
  exact Nat.succ_lt_succ hlt

/-- The accessed key comes before entries of other keys. -/
theorem order_cons_cons {a : Access α β} (v : β) (hl : ∀ e ∈ l, e.1 ≠ a.key)
    (ho : l.Pairwise fun e e' => age h e.1 < age h e'.1) :
    ((a.key, v) :: l).Pairwise fun e e' => age (a :: h) e.1 < age (a :: h) e'.1 := by
  refine List.pairwise_cons.2 ⟨fun e he => ?_, order_cons hl ho⟩
  rw [age_cons_self, age_cons_of_ne (hl e he)]
  exact Nat.succ_pos _

theorem lastSet_cons_of_ne {a : Access α β} (hk : k ≠ a.key) :
    lastSet (a :: h) k = lastSet h k := by
  cases a with
  | get key => rfl
  | set key v => exact if_neg hk.symm

omit [DecidableEq α] in
/-- What the cache keeps when it takes in a new entry. -/
theorem kept_sublist : (if cap ≤ l.length then l.dropLast else l).Sublist l := by
  split
  · exact List.dropLast_sublist l
  · exact List.Sublist.refl l

section Step

variable {a : Access α β}

/-- An access of no key of the cache leaves it as it is. -/
theorem Recent.skip (hl : Recent cap h l) (hk : ∀ e ∈ l, e.1 ≠ a.key) : Recent cap (a :: h) l where
  value e he := by
    rw [lastSet_cons_of_ne (hk e he)]
    exact hl.value e he
  order := order_cons hk hl.order
  size := hl.size

theorem Recent.touch (hl : Recent cap h l) {old : β} (hfound : find l a.key = some old)
    (hv : lastSet (a :: h) a.key = some v) : Recent cap (a :: h) (touch l a.key v) := by
  have hothers : ∀ e ∈ l.filter fun e => e.1 ≠ a.key, e ∈ l ∧ e.1 ≠ a.key := by
    intro e he
    simpa using List.mem_filter.1 he
  refine ⟨?_, ?_, ?_⟩
  · intro e he
    rcases List.mem_cons.1 he with rfl | he
    · exact hv
    · obtain ⟨hmem, hne⟩ := hothers e he
      rw [lastSet_cons_of_ne hne]
      exact hl.value e hmem
  · exact order_cons_cons v (fun e he => (hothers e he).2) (hl.order.filter _)
  · have hshorter : (l.filter fun e => e.1 ≠ a.key).length < l.length := by
      apply List.length_filter_lt_length_iff_exists.2
      exact ⟨(a.key, old), find_eq_some hfound, by simp⟩
    exact Nat.le_trans (Nat.succ_le_of_lt hshorter) hl.size

theorem Recent.push (hl : Recent cap h l) (hcap : 0 < cap) (hnew : find l a.key = none)
    (hv : lastSet (a :: h) a.key = some v) : Recent cap (a :: h) (push cap l a.key v) := by
  have hsub : (if cap ≤ l.length then l.dropLast else l).Sublist l := kept_sublist
  have hne : ∀ e ∈ if cap ≤ l.length then l.dropLast else l, e.1 ≠ a.key := fun e he =>
    find_eq_none.1 hnew e (hsub.subset he)
  refine ⟨?_, ?_, ?_⟩
  · intro e he
    rcases List.mem_cons.1 he with rfl | he
    · exact hv
    · rw [lastSet_cons_of_ne (hne e he)]
      exact hl.value e (hsub.subset he)
  · exact order_cons_cons v hne (hl.order.sublist hsub)
  · unfold Lru.push
    rw [List.length_cons]
    split
    · rw [List.length_dropLast]
      have hsize := hl.size
      omega
    · omega

theorem Recent.step (hl : Recent cap h l) (hcap : 0 < cap) (a : Access α β) :
    Recent cap (a :: h) (step cap l a) := by
  unfold Lru.step
  cases a with
  | get k =>
    dsimp only
    cases hfound : find l k with
    | none => exact hl.skip (a := .get k) (find_eq_none.1 hfound)
    | some v => exact hl.touch (a := .get k) hfound (hl.value _ (find_eq_some hfound))
  | set k v =>
    dsimp only
    cases hfound : find l k with
    | none => exact hl.push (a := .set k v) hcap hfound (if_pos rfl)
    | some old => exact hl.touch (a := .set k v) hfound (if_pos rfl)

end Step

/-- A key of the cache is found with the value it was last set to. -/
theorem Recent.find_eq_lastSet (hl : Recent cap h l) (hk : ∃ e ∈ l, e.1 = k) :
    find l k = lastSet h k := by
  cases hfound : find l k with
  | none =>
    obtain ⟨e, he, hkey⟩ := hk
    exact absurd hkey (find_eq_none.1 hfound e he)
  | some v => exact (hl.value _ (find_eq_some hfound)).symm

theorem step_of_new (hnew : find l k = none) : Lru.step cap l (.set k v) = Lru.push cap l k v := by
  unfold Lru.step
  dsimp only
  rw [hnew]

/-- In a full cache a new key takes the place of the key that was not used for longest. -/
theorem Recent.evicts (hl : Recent cap h l) (hcap : 0 < cap) (hfull : l.length = cap)
    (hnew : find l k = none) (v : β) :
    ∃ old ∈ l, (∀ e ∈ l, e.1 ≠ old.1 → age h e.1 < age h old.1) ∧
      ∀ k', (∃ e ∈ Lru.step cap l (.set k v), e.1 = k') ↔
        k' = k ∨ k' ≠ old.1 ∧ ∃ e ∈ l, e.1 = k' := by
  have hne : l ≠ [] := by
    rintro rfl
    exact absurd hfull (Nat.ne_of_lt hcap)
  obtain ⟨front, old, rfl⟩ : ∃ front old, l = front ++ [old] :=
    ⟨_, _, (List.dropLast_concat_getLast hne).symm⟩
  have hbefore : ∀ e ∈ front, age h e.1 < age h old.1 := fun e he =>
    (List.pairwise_append.1 hl.order).2.2 e he old List.mem_cons_self
  have hstep : Lru.step cap (front ++ [old]) (.set k v) = (k, v) :: front := by
    rw [step_of_new hnew]
    unfold Lru.push
    rw [if_pos (Nat.le_of_eq hfull.symm), List.dropLast_concat]
  refine ⟨old, by simp, ?_, fun k' => ?_⟩
  · intro e he hkey
    rcases List.mem_append.1 he with he | he
    · exact hbefore e he
    · obtain rfl := List.mem_singleton.1 he
      exact absurd rfl hkey
  · rw [hstep]
    constructor
    · rintro ⟨e, he, rfl⟩
      rcases List.mem_cons.1 he with rfl | he
      · exact Or.inl rfl
      · refine Or.inr ⟨?_, e, List.mem_append_left _ he, rfl⟩
        intro hkey
        have hlt := hbefore e he
        rw [hkey] at hlt
        exact absurd hlt (Nat.lt_irrefl _)
    · rintro (rfl | ⟨hkey, e, he, rfl⟩)
      · exact ⟨(k', v), List.mem_cons_self, rfl⟩
      · rcases List.mem_append.1 he with he | he
        · exact ⟨e, List.mem_cons_of_mem _ he, rfl⟩
        · obtain rfl := List.mem_singleton.1 he
          exact absurd rfl hkey

/-- A cache that is not full only takes a new key in. -/
theorem grows (hroom : l.length < cap) (hnew : find l k = none) :
    Lru.step cap l (.set k v) = (k, v) :: l := by
  rw [step_of_new hnew]
  unfold Lru.push
  rw [if_neg (Nat.not_le_of_lt hroom)]

section Run

/-- The answers of a run of accesses, in their order. -/
def answers (cap : Nat) (l : List (α × β)) : List (Access α β) → List (Option β)
  | [] => []
  | a :: ops => answer l a :: answers cap (Lru.step cap l a) ops

/-- What all entries have, and every value that is set, the entries keep. -/
theorem forall_mem_step {Q : α × β → Prop} (hl : ∀ e ∈ l, Q e) {a : Access α β}
    (ha : ∀ k v, a = .set k v → Q (k, v)) : ∀ e ∈ Lru.step cap l a, Q e := by
  have htouch : ∀ k v, Q (k, v) → ∀ e ∈ Lru.touch l k v, Q e := by
    intro k v hq e he
    rcases List.mem_cons.1 he with rfl | he
    · exact hq
    · exact hl e (List.mem_filter.1 he).1
  have hpush : ∀ k v, Q (k, v) → ∀ e ∈ Lru.push cap l k v, Q e := by
    intro k v hq e he
    rcases List.mem_cons.1 he with rfl | he
    · exact hq
    · exact hl e (kept_sublist.subset he)
  unfold Lru.step
  cases a with
  | get k =>
    dsimp only
    cases hfound : find l k with
    | none => exact hl
    | some v => exact htouch k v (hl _ (find_eq_some hfound))
  | set k v =>
    dsimp only
    cases find l k with
    | none => exact hpush k v (ha k v rfl)
    | some old => exact htouch k v (ha k v rfl)

theorem Recent.empty (cap : Nat) : Recent cap ([] : List (Access α β)) [] where
  value _ he := absurd he List.not_mem_nil
  order := List.Pairwise.nil
  size := Nat.zero_le cap

theorem Recent.run (hl : Recent cap h l) (hcap : 0 < cap) (ops : List (Access α β)) :
    Recent cap (ops.reverse ++ h) (ops.foldl (Lru.step cap) l) := by
  induction ops generalizing h l with
  | nil => exact hl
  | cons a ops ih =>
    rw [List.reverse_cons, List.append_assoc]
    exact ih (hl.step hcap a)

end Run

end Lru

end Vici2
