import Vici2.KeyedCount
import Vici2.LinkedChain
import Vici2.Lru

/-! The cache of parsed phone numbers: a map into the nodes of a doubly linked list, kept in the
order of their use by pointer writes. A dereference of nil is a panic, the outcome `none`. -/

namespace Vici2

namespace Tz

def parseLRUCap : Nat := 4096

structure LruNode (V : Type) where
  key : String
  value : V
  prev : Option Nat
  next : Option Nat

def LruNode.entry {V : Type} (n : LruNode V) : String × V := (n.key, n.value)

/-- The nodes stand on a heap under their addresses, the next free one is `fresh`. -/
structure ParseLRU (V : Type) where
  heap : Nat → LruNode V
  fresh : Nat
  m : String → Option Nat
  head : Option Nat
  tail : Option Nat
  count : Int

namespace ParseLRU

variable {V : Type}

/-- `globalParseLRU` as it starts. -/
def empty [Inhabited V] : ParseLRU V :=
  ⟨fun _ => ⟨"", default, none, none⟩, 0, fun _ => none, none, none, 0⟩

/-- A write through a pointer, which the code guards against nil. -/
def setNext (heap : Nat → LruNode V) (a x : Option Nat) : Nat → LruNode V :=
  a.elim heap fun a => Function.update heap a { heap a with next := x }

def setPrev (heap : Nat → LruNode V) (a x : Option Nat) : Nat → LruNode V :=
  a.elim heap fun a => Function.update heap a { heap a with prev := x }

def moveToHead (l : ParseLRU V) (n : Nat) : ParseLRU V :=
  if some n = l.head then l
  else
    let heap := setNext l.heap (l.heap n).prev (l.heap n).next
    let heap := setPrev heap (heap n).next (heap n).prev
    let tail := if some n = l.tail then (heap n).prev else l.tail
    let heap := setPrev heap (some n) none
    let heap := setNext heap (some n) l.head
    let heap := setPrev heap l.head (some n)
    { l with heap := heap, tail := tail, head := some n }

def get (l : ParseLRU V) (key : String) : Option V × ParseLRU V :=
  match l.m key with
  | none => (none, l)
  | some n =>
    let l := l.moveToHead n
    (some (l.heap n).value, l)

/-- The first lines of `set` on a new key: the tail goes. -/
def evict (l : ParseLRU V) : Option (ParseLRU V) :=
  l.tail.map fun t =>
    let prev := (l.heap t).prev
    { l with
      m := Function.update l.m (l.heap t).key none
      heap := setNext l.heap prev none
      head := if prev = none then none else l.head
      tail := prev
      count := l.count - 1 }

/-- The rest of it: a node is made and put first. -/
def insert (l : ParseLRU V) (key : String) (v : V) : ParseLRU V :=
  let n := l.fresh
  let l := { l with
    heap := Function.update l.heap n ⟨key, v, none, none⟩
    fresh := n + 1
    m := Function.update l.m key (some n)
    count := l.count + 1 }
  match l.head with
  | none => { l with head := some n, tail := some n }
  | some h =>
    { l with heap := setPrev (setNext l.heap (some n) (some h)) (some h) (some n), head := some n }

def set (l : ParseLRU V) (key : String) (v : V) : Option (ParseLRU V) :=
  match l.m key with
  | some n =>
    some ({ l with heap := Function.update l.heap n { l.heap n with value := v } }.moveToHead n)
  | none =>
    if l.count ≥ parseLRUCap then l.evict.map fun l => l.insert key v
    else some (l.insert key v)

def links (heap : Nat → LruNode V) : Links Nat := ⟨LruNode.next ∘ heap, LruNode.prev ∘ heap⟩

/-- The nodes that the links go through, from the head to the tail, are those of the map. -/
structure Linked (l : ParseLRU V) (nodes : List Nat) : Prop where
  nodup : nodes.Nodup
  chain : (links l.heap).Chain none nodes none
  head : l.head = nodes.head?
  tail : l.tail = nodes.getLast?
  count : l.count = nodes.length
  keys : ∀ key n, l.m key = some n ↔ n ∈ nodes ∧ (l.heap n).key = key
  fresh : ∀ n ∈ nodes, n < l.fresh

def entries (heap : Nat → LruNode V) (nodes : List Nat) : List (String × V) :=
  nodes.map fun n => (heap n).entry

section Heap

variable {heap : Nat → LruNode V} (a x : Option Nat)

theorem comp_update_of_eq {γ : Type} {f : LruNode V → γ} {n : Nat} {node : LruNode V}
    (h : f node = f (heap n)) : f ∘ Function.update heap n node = f ∘ heap := by
  rw [Function.comp_update, h]
  exact Function.update_eq_self n (f ∘ heap)

theorem links_setNext : links (setNext heap a x) = (links heap).setNextOf a x := by
  cases a with
  | none => rfl
  | some a =>
    have hnext := Function.comp_update LruNode.next heap a { heap a with next := x }
    have hprev : LruNode.prev ∘ Function.update heap a { heap a with next := x } =
        LruNode.prev ∘ heap := comp_update_of_eq rfl
    show Links.mk _ _ = Links.mk _ _
    exact congrArg₂ Links.mk hnext hprev

theorem links_setPrev : links (setPrev heap a x) = (links heap).setPrevOf a x := by
  cases a with
  | none => rfl
  | some a =>
    have hnext : LruNode.next ∘ Function.update heap a { heap a with prev := x } =
        LruNode.next ∘ heap := comp_update_of_eq rfl
    have hprev := Function.comp_update LruNode.prev heap a { heap a with prev := x }
    show Links.mk _ _ = Links.mk _ _
    exact congrArg₂ Links.mk hnext hprev

theorem entry_setNext : LruNode.entry ∘ setNext heap a x = LruNode.entry ∘ heap := by
  cases a with
  | none => rfl
  | some a => exact comp_update_of_eq rfl

theorem entry_setPrev : LruNode.entry ∘ setPrev heap a x = LruNode.entry ∘ heap := by
  cases a with
  | none => rfl
  | some a => exact comp_update_of_eq rfl

end Heap

section Move

variable {l : ParseLRU V} {n : Nat}

theorem moveToHead_of_head (h : some n = l.head) : l.moveToHead n = l := if_pos h

/-- Away from the head a node is unlinked and put first. -/
theorem moveToHead_of_ne (h : some n ≠ l.head) :
    ∃ heap, l.moveToHead n =
        { l with
          heap := heap
          tail := if some n = l.tail then (l.heap n).prev else l.tail
          head := some n } ∧
      links heap = ((links l.heap).unlink n).pushFront n l.head ∧
      LruNode.entry ∘ heap = LruNode.entry ∘ l.heap := by
  let h₁ := setNext l.heap (l.heap n).prev (l.heap n).next
  let h₂ := setPrev h₁ (h₁ n).next (h₁ n).prev
  have hunlink : links h₂ = (links l.heap).unlink n := by
    have hfirst : links h₁ = (links l.heap).setNextOf (l.heap n).prev (l.heap n).next :=
      links_setNext _ _
    have hsecond : links h₂ = (links h₁).setPrevOf ((links h₁).next n) ((links h₁).prev n) :=
      links_setPrev _ _
    rw [hsecond, hfirst]
    rfl
  have hprev : (h₂ n).prev = (l.heap n).prev := by
    have hkept := Links.unlink_prev (k := links l.heap) n
    rw [← hunlink] at hkept
    exact hkept
  refine ⟨setPrev (setNext (setPrev h₂ (some n) none) (some n) l.head) l.head (some n), ?_, ?_, ?_⟩
  · rw [← hprev]
    exact if_neg h
  · rw [links_setPrev, links_setNext, links_setPrev, hunlink]
    rfl
  · rw [entry_setPrev, entry_setNext, entry_setPrev, entry_setPrev, entry_setNext]

variable {nodes : List Nat}

/-- A change of the links that keeps the nodes and their entries keeps what the map says. -/
theorem Linked.keys_of_perm (hl : Linked l nodes) {heap : Nat → LruNode V} {nodes' : List Nat}
    (hentry : LruNode.entry ∘ heap = LruNode.entry ∘ l.heap) (hperm : nodes'.Perm nodes)
    (key : String) (n : Nat) : l.m key = some n ↔ n ∈ nodes' ∧ (heap n).key = key := by
  have hkey : (heap n).key = (l.heap n).key := congrArg Prod.fst (congrFun hentry n)
  rw [hl.keys, hkey, hperm.mem_iff]

theorem Linked.moveToHead (hl : Linked l nodes) (hn : n ∈ nodes) :
    Linked (l.moveToHead n) (n :: nodes.erase n) ∧
      LruNode.entry ∘ (l.moveToHead n).heap = LruNode.entry ∘ l.heap := by
  have hperm : (n :: nodes.erase n).Perm nodes := (List.perm_cons_erase hn).symm
  by_cases h : some n = l.head
  · rw [moveToHead_of_head h]
    obtain ⟨rest, rfl⟩ : ∃ rest, nodes = n :: rest := by
      rw [hl.head] at h
      exact ⟨_, List.eq_cons_of_mem_head? h.symm⟩
    rw [List.erase_cons_head]
    exact ⟨hl, rfl⟩
  · obtain ⟨heap, heq, hlinks, hentry⟩ := moveToHead_of_ne h
    obtain ⟨l₁, l₂, rfl⟩ := List.append_of_mem hn
    have hout : n ∉ l₁ := fun hmem =>
      List.disjoint_of_nodup_append hl.nodup hmem List.mem_cons_self
    have herase : (l₁ ++ n :: l₂).erase n = l₁ ++ l₂ := by
      rw [List.erase_append_right _ hout, List.erase_cons_head]
    obtain ⟨b, l₁, rfl⟩ : ∃ b rest, l₁ = b :: rest := by
      apply List.exists_cons_of_ne_nil
      rintro rfl
      exact h hl.head.symm
    have hhead : l.head = (b :: l₁ ++ l₂).head? := hl.head
    have htail : (if some n = l.tail then (l.heap n).prev else l.tail) =
        (n :: (b :: l₁ ++ l₂)).getLast? := by
      rw [hl.tail]
      rcases List.eq_nil_or_concat' l₂ with rfl | ⟨l₂, t, rfl⟩
      · rw [List.getLast?_concat, if_pos rfl, List.append_nil]
        exact hl.chain.neighbours.1
      · have hne : n ≠ t := by
          rintro rfl
          exact (List.nodup_cons.1 (List.nodup_append'.1 hl.nodup).2.1).1 (by simp)
        have hlast : (b :: l₁ ++ n :: (l₂ ++ [t])).getLast? = some t := by
          rw [← List.cons_append, ← List.append_assoc, List.getLast?_concat]
        rw [hlast, if_neg (fun heq => hne (Option.some.inj heq)), ← List.append_assoc,
          ← List.cons_append, List.getLast?_concat]
    rw [heq]
    rw [herase] at hperm ⊢
    have hnodup := hperm.nodup_iff.2 hl.nodup
    obtain ⟨hnew, hrest⟩ := List.nodup_cons.1 hnodup
    refine ⟨⟨hnodup, ?_, rfl, htail, ?_, hl.keys_of_perm hentry hperm, ?_⟩, hentry⟩
    · rw [hlinks, hhead]
      exact (hl.chain.unlink hl.nodup).pushFront hrest hnew
    · show l.count = _
      rw [hl.count, hperm.length_eq]
    · intro n' hn'
      exact hl.fresh n' (hperm.subset hn')

end Move

section Evict

variable {l : ParseLRU V} {nodes : List Nat} {t : Nat}

/-- A node of the list is the one that the map has under its key. -/
theorem Linked.eq_of_key (hl : Linked l nodes) {a b : Nat} (ha : a ∈ nodes) (hb : b ∈ nodes)
    (hkey : (l.heap a).key = (l.heap b).key) : a = b := by
  have hma := (hl.keys (l.heap a).key a).2 ⟨ha, rfl⟩
  have hmb := (hl.keys (l.heap a).key b).2 ⟨hb, hkey.symm⟩
  exact Option.some.inj (hma.symm.trans hmb)

/-- The map loses the key of the last node, and the list the node. -/
theorem Linked.evict (hl : Linked l (nodes ++ [t])) :
    ∃ l', l.evict = some l' ∧ Linked l' nodes ∧
      l'.m = Function.update l.m (l.heap t).key none ∧
      LruNode.entry ∘ l'.heap = LruNode.entry ∘ l.heap := by
  obtain ⟨hnodup, -, hdisjoint⟩ := List.nodup_append'.1 hl.nodup
  have ht : t ∉ nodes := fun hmem => hdisjoint hmem (List.mem_singleton_self t)
  have htail : l.tail = some t := by rw [hl.tail, List.getLast?_concat]
  have hprev : (l.heap t).prev = nodes.getLast? := hl.chain.neighbours.1
  have hentry : LruNode.entry ∘ setNext l.heap (l.heap t).prev none = LruNode.entry ∘ l.heap :=
    entry_setNext _ _
  unfold ParseLRU.evict
  rw [htail]
  refine ⟨_, rfl, ?_, rfl, hentry⟩
  constructor
  · exact hnodup
  · dsimp only
    rw [links_setNext, hprev]
    exact ((Links.chain_append nodes [t]).1 hl.chain).1.setNextOf_getLast? hnodup none
  · dsimp only
    rw [hprev, hl.head]
    cases nodes with
    | nil => rfl
    | cons b nodes => rfl
  · exact hprev
  · dsimp only
    rw [hl.count, List.length_append]
    simp
  · intro key n
    dsimp only
    have hkeys := hl.keys_of_perm hentry (List.Perm.refl _) key n
    have hkey : ∀ b, (setNext l.heap (l.heap t).prev none b).key = (l.heap b).key := fun b =>
      congrArg Prod.fst (congrFun hentry b)
    rw [update_none_eq_some, hkeys, List.mem_append, List.mem_singleton]
    constructor
    · rintro ⟨hne, hmem | rfl, hn⟩
      · exact ⟨hmem, hn⟩
      · rw [hkey] at hn
        exact absurd hn.symm hne
    · rintro ⟨hmem, hn⟩
      refine ⟨?_, Or.inl hmem, hn⟩
      rintro rfl
      rw [hkey] at hn
      have hsame := hl.eq_of_key (List.mem_append_left _ hmem) (by simp) hn
      rw [hsame] at hmem
      exact ht hmem
  · intro n hn
    exact hl.fresh n (List.mem_append_left _ hn)

end Evict

section Insert

variable {l : ParseLRU V} {nodes : List Nat} {key : String} {v : V}

theorem entries_congr {heap heap' : Nat → LruNode V} (nodes : List Nat)
    (h : LruNode.entry ∘ heap' = LruNode.entry ∘ heap) : entries heap' nodes = entries heap nodes :=
  congrArg (fun f => nodes.map f) h

/-- With or without a head, the writes are those that put the new node first. -/
theorem insert_eq :
    let heap := Function.update l.heap l.fresh ⟨key, v, none, none⟩
    l.insert key v =
      { heap := setPrev (setNext heap (some l.fresh) l.head) l.head (some l.fresh)
        fresh := l.fresh + 1
        m := Function.update l.m key (some l.fresh)
        head := some l.fresh
        tail := if l.head = none then some l.fresh else l.tail
        count := l.count + 1 } := by
  intro heap
  unfold ParseLRU.insert
  dsimp only
  cases l.head with
  | none =>
    have hnode : setNext heap (some l.fresh) none = heap := by
      show Function.update heap l.fresh { heap l.fresh with next := none } = heap
      have hfresh : heap l.fresh = ⟨key, v, none, none⟩ := Function.update_self _ _ _
      have hsame : { heap l.fresh with next := none } = heap l.fresh := by rw [hfresh]
      rw [hsame]
      exact Function.update_eq_self _ _
    rw [hnode]
    rfl
  | some h => rfl

theorem links_insert {heap : Nat → LruNode V} {n : Nat} (hnode : heap n = ⟨key, v, none, none⟩)
    (h : Option Nat) :
    links (setPrev (setNext heap (some n) h) h (some n)) = (links heap).pushFront n h := by
  have hnone : (links heap).setPrev n none = links heap := by
    have hprev : (links heap).prev n = none := congrArg LruNode.prev hnode
    unfold Links.setPrev
    rw [← hprev, Function.update_eq_self]
  rw [links_setPrev, links_setNext]
  unfold Links.pushFront
  rw [hnone]
  rfl

/-- A key that the map did not have is now that of the new node. -/
theorem Linked.keys_insert (hl : Linked l nodes) (hnew : l.m key = none)
    {heap : Nat → LruNode V} (hnode : (heap l.fresh).key = key)
    (hold : ∀ n ∈ nodes, (heap n).key = (l.heap n).key) (key' : String) (n : Nat) :
    Function.update l.m key (some l.fresh) key' = some n ↔
      n ∈ l.fresh :: nodes ∧ (heap n).key = key' := by
  rw [update_some_eq_some, hl.keys, List.mem_cons]
  constructor
  · rintro (⟨rfl, rfl⟩ | ⟨-, hn, rfl⟩)
    · exact ⟨Or.inl rfl, hnode⟩
    · exact ⟨Or.inr hn, hold n hn⟩
  · rintro ⟨rfl | hn, rfl⟩
    · exact Or.inl ⟨hnode, rfl⟩
    · right
      rw [hold n hn]
      refine ⟨?_, hn, rfl⟩
      intro hsame
      have hfound := (hl.keys key n).2 ⟨hn, hsame⟩
      rw [hnew] at hfound
      exact absurd hfound.symm (Option.some_ne_none n)

theorem Linked.insert (hl : Linked l nodes) (hnew : l.m key = none) :
    Linked (l.insert key v) (l.fresh :: nodes) ∧
      entries (l.insert key v).heap (l.fresh :: nodes) = (key, v) :: entries l.heap nodes := by
  have hout : l.fresh ∉ nodes := fun hmem => Nat.lt_irrefl _ (hl.fresh _ hmem)
  rw [insert_eq]
  generalize hheap : Function.update l.heap l.fresh ⟨key, v, none, none⟩ = heap
  have hfresh : heap l.fresh = ⟨key, v, none, none⟩ := by
    rw [← hheap]
    exact Function.update_self _ _ _
  have hold : ∀ n ∈ nodes, heap n = l.heap n := by
    intro n hn
    rw [← hheap]
    apply Function.update_of_ne
    rintro rfl
    exact hout hn
  have hentry : LruNode.entry ∘ setPrev (setNext heap (some l.fresh) l.head) l.head (some l.fresh) =
      LruNode.entry ∘ heap := by
    rw [entry_setPrev, entry_setNext]
  have hkey : ∀ n, (setPrev (setNext heap (some l.fresh) l.head) l.head (some l.fresh) n).key =
      (heap n).key := fun n => congrArg Prod.fst (congrFun hentry n)
  refine ⟨⟨List.nodup_cons.2 ⟨hout, hl.nodup⟩, ?_, rfl, ?_, ?_, fun key' n => ?_, ?_⟩, ?_⟩
  · dsimp only
    rw [links_insert hfresh, hl.head]
    refine Links.Chain.pushFront (hl.chain.congr fun a ha => ?_) hl.nodup hout
    exact ⟨congrArg LruNode.next (hold a ha), congrArg LruNode.prev (hold a ha)⟩
  · dsimp only
    rw [hl.head, hl.tail]
    cases nodes with
    | nil => rfl
    | cons b nodes =>
      rw [List.head?_cons, if_neg (Option.some_ne_none b), List.getLast?_cons_cons]
  · dsimp only
    rw [hl.count, List.length_cons]
    rfl
  · dsimp only
    apply hl.keys_insert hnew
    · rw [hkey, hfresh]
    · intro n hn
      rw [hkey, hold n hn]
  · intro n hn
    rcases List.mem_cons.1 hn with rfl | hn
    · exact Nat.lt_succ_self _
    · exact Nat.lt_succ_of_lt (hl.fresh n hn)
  · dsimp only
    rw [entries_congr _ hentry]
    unfold entries
    rw [List.map_cons, hfresh]
    exact congrArg _ (List.map_congr_left fun n hn => congrArg LruNode.entry (hold n hn))

end Insert

end ParseLRU

end Tz

end Vici2
