import Mathlib.Data.List.Induction
import Mathlib.Data.List.Nodup
import Mathlib.Logic.Function.Basic

/-! Doubly linked nodes. A list of nodes is a chain when the links of each node lead to its two
neighbours in the list; the writes of pointer code, each guarded against nil, cut the list, join
it again and put a node before it. -/

namespace Vici2

structure Links (ι : Type*) where
  next : ι → Option ι
  prev : ι → Option ι

namespace Links

variable {ι : Type*}

section Writes

variable [DecidableEq ι]

def setNext (k : Links ι) (a : ι) (x : Option ι) : Links ι :=
  { k with next := Function.update k.next a x }

def setPrev (k : Links ι) (a : ι) (x : Option ι) : Links ι :=
  { k with prev := Function.update k.prev a x }

/-- A write through a pointer that may be nil. -/
def setNextOf (k : Links ι) (a x : Option ι) : Links ι := a.elim k fun a => k.setNext a x

def setPrevOf (k : Links ι) (a x : Option ι) : Links ι := a.elim k fun a => k.setPrev a x

/-- The neighbours of a node are joined over it. -/
def unlink (k : Links ι) (a : ι) : Links ι :=
  let k := k.setNextOf (k.prev a) (k.next a)
  k.setPrevOf (k.next a) (k.prev a)

/-- A node is put before the first one. -/
def pushFront (k : Links ι) (a : ι) (first : Option ι) : Links ι :=
  ((k.setPrev a none).setNext a first).setPrevOf first (some a)

end Writes

/-- From the node before the list to the one after it, the links of the listed nodes lead from
each to the next and back. -/
def Chain (k : Links ι) : Option ι → List ι → Option ι → Prop
  | _, [], _ => True
  | before, a :: l, after =>
    k.prev a = before ∧ k.next a = l.head?.or after ∧ Chain k (some a) l after

variable {k k' : Links ι} {before after : Option ι} {l : List ι}

theorem chain_append (l₁ l₂ : List ι) :
    k.Chain before (l₁ ++ l₂) after ↔
      k.Chain before l₁ (l₂.head?.or after) ∧ k.Chain (l₁.getLast?.or before) l₂ after := by
  induction l₁ generalizing before with
  | nil =>
    rw [List.nil_append, List.getLast?_nil, Option.none_or]
    exact (and_iff_right trivial).symm
  | cons a l₁ ih =>
    have hlast : (a :: l₁).getLast?.or before = l₁.getLast?.or (some a) := by
      rw [List.getLast?_cons]
      cases l₁.getLast? with
      | none => rfl
      | some b => rfl
    rw [List.cons_append, Chain, Chain, ih, hlast, List.head?_append, Option.or_assoc, and_assoc,
      and_assoc]

/-- A chain reads only the links of its nodes. -/
theorem Chain.congr (h : k.Chain before l after)
    (hk : ∀ a ∈ l, k'.next a = k.next a ∧ k'.prev a = k.prev a) : k'.Chain before l after := by
  induction l generalizing before with
  | nil => trivial
  | cons a l ih =>
    obtain ⟨hprev, hnext, hrest⟩ := h
    obtain ⟨hnext', hprev'⟩ := hk a List.mem_cons_self
    exact ⟨hprev'.trans hprev, hnext'.trans hnext,
      ih hrest fun b hb => hk b (List.mem_cons_of_mem a hb)⟩

/-- The links of a node of a chain lead to its neighbours in the list. -/
theorem Chain.neighbours {a : ι} {l₁ l₂ : List ι} (h : k.Chain none (l₁ ++ a :: l₂) none) :
    k.prev a = l₁.getLast? ∧ k.next a = l₂.head? := by
  obtain ⟨-, hprev, hnext, -⟩ := (chain_append l₁ (a :: l₂)).1 h
  rw [Option.or_none] at hprev hnext
  exact ⟨hprev, hnext⟩

variable [DecidableEq ι]

section Frame

variable {a x : Option ι}

theorem Chain.setNextOf_of_notMem (h : k.Chain before l after) (ha : ∀ b ∈ a, b ∉ l) :
    (k.setNextOf a x).Chain before l after := by
  cases a with
  | none => exact h
  | some a =>
    apply h.congr
    intro b hb
    have hne : b ≠ a := by
      rintro rfl
      exact ha b rfl hb
    exact ⟨Function.update_of_ne hne _ _, rfl⟩

theorem Chain.setPrevOf_of_notMem (h : k.Chain before l after) (ha : ∀ b ∈ a, b ∉ l) :
    (k.setPrevOf a x).Chain before l after := by
  cases a with
  | none => exact h
  | some a =>
    apply h.congr
    intro b hb
    have hne : b ≠ a := by
      rintro rfl
      exact ha b rfl hb
    exact ⟨rfl, Function.update_of_ne hne _ _⟩

end Frame

/-- The last node of a chain is made to lead elsewhere. -/
theorem Chain.setNextOf_getLast? (h : k.Chain before l after) (hl : l.Nodup) (x : Option ι) :
    (k.setNextOf l.getLast? x).Chain before l x := by
  induction l using List.reverseRecOn with
  | nil => trivial
  | append_singleton l a _ =>
    rw [List.getLast?_concat]
    obtain ⟨hfirst, hprev, -, -⟩ := (chain_append l [a]).1 h
    have hout : ∀ b ∈ some a, b ∉ l := by
      rintro b hb hmem
      obtain rfl := Option.some.inj hb
      exact List.disjoint_of_nodup_append hl hmem List.mem_cons_self
    apply (chain_append l [a]).2
    exact ⟨hfirst.setNextOf_of_notMem hout, hprev, Function.update_self _ _ _, trivial⟩

/-- The first node of a chain is made to lead back elsewhere. -/
theorem Chain.setPrevOf_head? (h : k.Chain before l after) (hl : l.Nodup) (x : Option ι) :
    (k.setPrevOf l.head? x).Chain x l after := by
  cases l with
  | nil => trivial
  | cons a l =>
    obtain ⟨-, hnext, hrest⟩ := h
    have hout : ∀ b ∈ some a, b ∉ l := by
      rintro b hb
      obtain rfl := Option.some.inj hb
      exact (List.nodup_cons.1 hl).1
    exact ⟨Function.update_self _ _ _, hnext, hrest.setPrevOf_of_notMem hout⟩

@[simp] theorem setNextOf_prev (a x : Option ι) : (k.setNextOf a x).prev = k.prev := by
  cases a with
  | none => rfl
  | some a => rfl

theorem setNextOf_next_self (b : Option ι) (a : ι) :
    (k.setNextOf b (k.next a)).next a = k.next a := by
  cases b with
  | none => rfl
  | some b =>
    show Function.update k.next b (k.next a) a = k.next a
    by_cases hb : a = b
    · rw [hb, Function.update_self]
    · exact Function.update_of_ne hb _ _

theorem setPrevOf_prev_self (b : Option ι) (a : ι) :
    (k.setPrevOf b (k.prev a)).prev a = k.prev a := by
  cases b with
  | none => rfl
  | some b =>
    show Function.update k.prev b (k.prev a) a = k.prev a
    by_cases hb : a = b
    · rw [hb, Function.update_self]
    · exact Function.update_of_ne hb _ _

/-- The first write leaves the links of the node itself as they were. -/
theorem unlink_eq (a : ι) :
    k.unlink a = (k.setNextOf (k.prev a) (k.next a)).setPrevOf (k.next a) (k.prev a) := by
  unfold Links.unlink
  dsimp only
  rw [setNextOf_next_self, setNextOf_prev]

theorem unlink_prev (a : ι) : (k.unlink a).prev a = k.prev a := by
  have hself := setPrevOf_prev_self (k := k.setNextOf (k.prev a) (k.next a)) (k.next a) a
  rw [setNextOf_prev] at hself
  rw [unlink_eq, hself]

theorem Chain.unlink {a : ι} {l₁ l₂ : List ι} (h : k.Chain none (l₁ ++ a :: l₂) none)
    (hl : (l₁ ++ a :: l₂).Nodup) : (k.unlink a).Chain none (l₁ ++ l₂) none := by
  obtain ⟨hprev, hnext⟩ := h.neighbours
  obtain ⟨hnodup₁, hnodup₂, hdisjoint⟩ := List.nodup_append'.1 hl
  obtain ⟨hfront, hback⟩ := (chain_append l₁ (a :: l₂)).1 h
  have hlast : ∀ b ∈ l₁.getLast?, b ∉ a :: l₂ := fun b hb =>
    hdisjoint (List.mem_of_getLast? hb)
  have hfirst : ∀ b ∈ l₂.head?, b ∉ l₁ := fun b hb hmem =>
    hdisjoint hmem (List.mem_cons_of_mem a (List.mem_of_head? hb))
  have hcut := hfront.setNextOf_getLast? hnodup₁ l₂.head?
  obtain ⟨-, -, hrest⟩ := hback.setNextOf_of_notMem (x := l₂.head?) hlast
  rw [unlink_eq, hprev, hnext, chain_append, Option.or_none, Option.or_none]
  exact ⟨hcut.setPrevOf_of_notMem hfirst,
    hrest.setPrevOf_head? (List.nodup_cons.1 hnodup₂).2 l₁.getLast?⟩

theorem Chain.pushFront {a : ι} (h : k.Chain none l none) (hl : l.Nodup) (ha : a ∉ l) :
    (k.pushFront a l.head?).Chain none (a :: l) none := by
  have hout : ∀ b ∈ some a, b ∉ l := by
    rintro b hb
    obtain rfl := Option.some.inj hb
    exact ha
  have hset : ((k.setPrev a none).setNext a l.head?).Chain none l none :=
    (h.setPrevOf_of_notMem (a := some a) (x := none) hout).setNextOf_of_notMem (a := some a) hout
  have hrest := hset.setPrevOf_head? hl (some a)
  have hnode : ((k.setPrev a none).setNext a l.head?).Chain none [a] l.head? :=
    ⟨Function.update_self _ _ _, Function.update_self _ _ _, trivial⟩
  have hfirst : ∀ b ∈ l.head?, b ∉ [a] := by
    intro b hb hmem
    obtain rfl := List.mem_singleton.1 hmem
    exact ha (List.mem_of_head? hb)
  apply (chain_append [a] l).2
  rw [Option.or_none]
  exact ⟨hnode.setPrevOf_of_notMem hfirst, hrest⟩

end Links

end Vici2
