import Vici2.ParseLru
import Vici2.TzResolver

/-! The cache of parsed numbers as an LRU cache: its nodes are the entries of the abstract cache
in the order of their use, over any run. A number parsed through it is parsed as without. -/

namespace Vici2

namespace Tz

open Lru (Access)

namespace ParseLRU

variable {V : Type} {l : ParseLRU V} {nodes : List Nat}

/-- The map finds what the abstract cache finds. -/
theorem Linked.find_entries (hl : Linked l nodes) (key : String) :
    Lru.find (entries l.heap nodes) key = (l.m key).map fun n => (l.heap n).value := by
  cases hm : l.m key with
  | none =>
    rw [Option.map_none, Lru.find_eq_none]
    intro e he hkey
    obtain ⟨n, hn, rfl⟩ := List.mem_map.1 he
    have hfound := (hl.keys key n).2 ⟨hn, hkey⟩
    rw [hm] at hfound
    exact absurd hfound.symm (Option.some_ne_none n)
  | some n =>
    obtain ⟨hn, hkey⟩ := (hl.keys key n).1 hm
    cases hfound : Lru.find (entries l.heap nodes) key with
    | none =>
      have hne := Lru.find_eq_none.1 hfound (l.heap n).entry (List.mem_map_of_mem hn)
      exact absurd hkey hne
    | some v =>
      obtain ⟨n', hn', hentry⟩ := List.mem_map.1 (Lru.find_eq_some hfound)
      have hkey' : (l.heap n').key = key := congrArg Prod.fst hentry
      have hvalue : (l.heap n').value = v := congrArg Prod.snd hentry
      rw [hl.eq_of_key hn hn' (hkey.trans hkey'.symm), Option.map_some, hvalue]

/-- The node that is used goes before the entries of the other keys. -/
theorem Linked.entries_moveToHead (hl : Linked l nodes) {n : Nat} (hn : n ∈ nodes) :
    entries (l.moveToHead n).heap (n :: nodes.erase n) =
      Lru.touch (entries l.heap nodes) (l.heap n).key (l.heap n).value := by
  obtain ⟨-, hentry⟩ := hl.moveToHead hn
  rw [entries_congr _ hentry, hl.nodup.erase_eq_filter]
  unfold entries Lru.touch
  rw [List.map_cons, List.filter_map]
  refine congrArg _ (congrArg _ (List.filter_congr fun b hb => ?_))
  by_cases hb' : b = n
  · subst hb'
    simp [LruNode.entry]
  · have hne : (l.heap b).key ≠ (l.heap n).key := fun hkey => hb' (hl.eq_of_key hb hn hkey)
    simp [LruNode.entry, hb', hne]

theorem Linked.get (hl : Linked l nodes) (key : String) :
    ∃ nodes', Linked (l.get key).2 nodes' ∧
      entries (l.get key).2.heap nodes' =
        Lru.step parseLRUCap (entries l.heap nodes) (.get key) ∧
      (l.get key).1 = Lru.find (entries l.heap nodes) key := by
  have hfind := hl.find_entries key
  unfold Lru.step
  dsimp only
  cases hm : l.m key with
  | none =>
    have hget : l.get key = (none, l) := by
      unfold ParseLRU.get
      rw [hm]
    rw [hm] at hfind
    rw [hget, hfind]
    exact ⟨nodes, hl, rfl, rfl⟩
  | some n =>
    obtain ⟨hn, hkey⟩ := (hl.keys key n).1 hm
    obtain ⟨hmoved, hentry⟩ := hl.moveToHead hn
    have hget : l.get key = (some ((l.moveToHead n).heap n).value, l.moveToHead n) := by
      unfold ParseLRU.get
      rw [hm]
    have hvalue : ((l.moveToHead n).heap n).value = (l.heap n).value :=
      congrArg Prod.snd (congrFun hentry n)
    rw [hm] at hfind
    rw [hget, hfind, hvalue]
    refine ⟨n :: nodes.erase n, hmoved, ?_, rfl⟩
    rw [hl.entries_moveToHead hn, hkey]
    rfl

section Set

variable {n : Nat} {v : V}

theorem key_setValue (heap : Nat → LruNode V) (n : Nat) (v : V) (b : Nat) :
    (Function.update heap n { heap n with value := v } b).key = (heap b).key := by
  have hkeys : LruNode.key ∘ Function.update heap n { heap n with value := v } =
      LruNode.key ∘ heap := comp_update_of_eq rfl
  exact congrFun hkeys b

/-- A new value leaves the links and the keys as they are. -/
theorem Linked.setValue (hl : Linked l nodes) (n : Nat) (v : V) :
    Linked { l with heap := Function.update l.heap n { l.heap n with value := v } } nodes := by
  have hlinks : links (Function.update l.heap n { l.heap n with value := v }) = links l.heap :=
    congrArg₂ Links.mk (comp_update_of_eq rfl) (comp_update_of_eq rfl)
  refine ⟨hl.nodup, ?_, hl.head, hl.tail, hl.count, fun key a => ?_, hl.fresh⟩
  · rw [hlinks]
    exact hl.chain
  · dsimp only
    rw [key_setValue]
    exact hl.keys key a

/-- The entries of the other keys do not see it. -/
theorem touch_setValue (heap : Nat → LruNode V) (nodes : List Nat) (n : Nat) (v : V) :
    Lru.touch (entries (Function.update heap n { heap n with value := v }) nodes) (heap n).key v =
      Lru.touch (entries heap nodes) (heap n).key v := by
  unfold Lru.touch entries
  rw [List.filter_map, List.filter_map]
  have hfilter : nodes.filter ((fun e : String × V => decide (e.1 ≠ (heap n).key)) ∘
        fun b => (Function.update heap n { heap n with value := v } b).entry) =
      nodes.filter ((fun e : String × V => decide (e.1 ≠ (heap n).key)) ∘
        fun b => (heap b).entry) := by
    apply List.filter_congr
    intro b _
    show decide ((Function.update heap n { heap n with value := v } b).key ≠ _) =
      decide ((heap b).key ≠ _)
    rw [key_setValue]
  rw [hfilter]
  refine congrArg _ (List.map_congr_left fun b hb => ?_)
  have hne : b ≠ n := by
    rintro rfl
    simp [LruNode.entry] at hb
  rw [Function.update_of_ne hne]

theorem Linked.set (hl : Linked l nodes) (key : String) (v : V) :
    ∃ l' nodes', l.set key v = some l' ∧ Linked l' nodes' ∧
      entries l'.heap nodes' = Lru.step parseLRUCap (entries l.heap nodes) (.set key v) := by
  have hfind := hl.find_entries key
  unfold ParseLRU.set
  cases hm : l.m key with
  | some n =>
    obtain ⟨hn, hkey⟩ := (hl.keys key n).1 hm
    have hset := hl.setValue n v
    rw [hm] at hfind
    refine ⟨_, n :: nodes.erase n, rfl, (hset.moveToHead hn).1, ?_⟩
    rw [hset.entries_moveToHead hn]
    dsimp only
    rw [Function.update_self, touch_setValue, hkey]
    unfold Lru.step
    dsimp only
    rw [hfind]
    rfl
  | none =>
    rw [hm] at hfind
    rw [Lru.step_of_new hfind]
    unfold Lru.push
    have hlength : (entries l.heap nodes).length = nodes.length := List.length_map _
    dsimp only
    rw [hlength, hl.count]
    by_cases hfull : parseLRUCap ≤ nodes.length
    · have hne : nodes ≠ [] := by
        rintro rfl
        exact absurd hfull (by decide)
      obtain ⟨front, t, rfl⟩ : ∃ front t, nodes = front ++ [t] :=
        ⟨_, _, (List.dropLast_concat_getLast hne).symm⟩
      obtain ⟨l₁, hevict, hl₁, hm₁, hentry⟩ := hl.evict
      have hnew : l₁.m key = none := by
        rw [hm₁, Function.update_apply, hm, ite_self]
      obtain ⟨hinsert, hentries⟩ := hl₁.insert (v := v) hnew
      rw [if_pos (Int.ofNat_le.2 hfull), if_pos hfull, hevict]
      refine ⟨_, _, rfl, hinsert, ?_⟩
      rw [hentries, entries_congr _ hentry]
      unfold entries
      rw [List.map_append, List.map_singleton, List.dropLast_concat]
    · obtain ⟨hinsert, hentries⟩ := hl.insert (v := v) hm
      rw [if_neg (fun h => hfull (Int.ofNat_le.1 h)), if_neg hfull]
      exact ⟨_, _, rfl, hinsert, hentries⟩

end Set

def access (l : ParseLRU V) : Access String V → Option (ParseLRU V × Option V)
  | .get key => some ((l.get key).2, (l.get key).1)
  | .set key v => (l.set key v).map fun l => (l, none)

/-- A run of calls, with what each returns. -/
def run (l : ParseLRU V) : List (Access String V) → Option (ParseLRU V × List (Option V))
  | [] => some (l, [])
  | a :: ops =>
    (l.access a).bind fun r => (r.1.run ops).map fun rest => (rest.1, r.2 :: rest.2)

theorem Linked.access (hl : Linked l nodes) (a : Access String V) :
    ∃ l' nodes', l.access a = some (l', Lru.answer (entries l.heap nodes) a) ∧ Linked l' nodes' ∧
      entries l'.heap nodes' = Lru.step parseLRUCap (entries l.heap nodes) a := by
  cases a with
  | get key =>
    obtain ⟨nodes', hnext, hstep, hanswer⟩ := hl.get key
    refine ⟨(l.get key).2, nodes', ?_, hnext, hstep⟩
    show some ((l.get key).2, (l.get key).1) = some ((l.get key).2, Lru.find _ key)
    rw [hanswer]
  | set key v =>
    obtain ⟨l', nodes', hset, hnext, hstep⟩ := hl.set key v
    refine ⟨l', nodes', ?_, hnext, hstep⟩
    show (l.set key v).map (fun l => (l, none)) = some (l', none)
    rw [hset]
    rfl

theorem Linked.run (hl : Linked l nodes) (ops : List (Access String V)) :
    ∃ l' nodes', l.run ops = some (l', Lru.answers parseLRUCap (entries l.heap nodes) ops) ∧
      Linked l' nodes' ∧
      entries l'.heap nodes' = ops.foldl (Lru.step parseLRUCap) (entries l.heap nodes) := by
  induction ops generalizing l nodes with
  | nil => exact ⟨l, nodes, rfl, hl, rfl⟩
  | cons a ops ih =>
    obtain ⟨l₁, nodes₁, haccess, hl₁, hstep⟩ := hl.access a
    obtain ⟨l', nodes', hrun, hl', hentries⟩ := ih hl₁
    refine ⟨l', nodes', ?_, hl', ?_⟩
    · unfold ParseLRU.run
      rw [haccess, Option.bind_some, hrun, hstep]
      rfl
    · rw [hentries, hstep]
      rfl

theorem linked_empty [Inhabited V] : Linked (empty : ParseLRU V) [] where
  nodup := List.nodup_nil
  chain := trivial
  head := rfl
  tail := rfl
  count := rfl
  keys _ _ := iff_of_false (fun h => nomatch h) fun h => absurd h.1 List.not_mem_nil
  fresh _ h := absurd h List.not_mem_nil

def Holds (l : ParseLRU V) (key : String) : Prop := (l.m key).isSome

/-- A key of the map is that of an entry. -/
theorem Linked.holds_iff (hl : Linked l nodes) (key : String) :
    l.Holds key ↔ ∃ e ∈ entries l.heap nodes, e.1 = key := by
  unfold Holds
  rw [Option.isSome_iff_exists]
  constructor
  · rintro ⟨n, hm⟩
    obtain ⟨hn, hkey⟩ := (hl.keys key n).1 hm
    exact ⟨(l.heap n).entry, List.mem_map_of_mem hn, hkey⟩
  · rintro ⟨e, he, hkey⟩
    obtain ⟨n, hn, rfl⟩ := List.mem_map.1 he
    exact ⟨n, (hl.keys key n).2 ⟨hn, hkey⟩⟩

/-- What a cache does at a time of its history, the most recent access first: it finds what was
set last under the keys it holds, and a new key takes, when the cache is full, the place of the
one key that was not used for longest. -/
structure IsLru (l : ParseLRU V) (history : List (Access String V)) : Prop where
  size : l.count ≤ parseLRUCap
  hit : ∀ key, l.Holds key → ∃ v, (l.get key).1 = some v ∧ Lru.lastSet history key = some v
  miss : ∀ key, ¬ l.Holds key → (l.get key).1 = none
  grows : ∀ key v, ¬ l.Holds key → l.count < parseLRUCap →
    ∃ l', l.set key v = some l' ∧ ∀ key', l'.Holds key' ↔ key' = key ∨ l.Holds key'
  evicts : ∀ key v, ¬ l.Holds key → l.count = parseLRUCap →
    ∃ l' old, l.set key v = some l' ∧ l.Holds old ∧
      (∀ key', l.Holds key' → key' ≠ old → Lru.age history key' < Lru.age history old) ∧
      ∀ key', l'.Holds key' ↔ key' = key ∨ key' ≠ old ∧ l.Holds key'

theorem Linked.length_entries (hl : Linked l nodes) :
    l.count = (entries l.heap nodes).length := by
  rw [hl.count]
  unfold entries
  rw [List.length_map]

theorem Linked.isLru (hl : Linked l nodes) {history : List (Access String V)}
    (hr : Lru.Recent parseLRUCap history (entries l.heap nodes)) : IsLru l history := by
  have hfind : ∀ key, (l.get key).1 = Lru.find (entries l.heap nodes) key := by
    intro key
    obtain ⟨-, -, -, hanswer⟩ := hl.get key
    exact hanswer
  have hnone : ∀ key, ¬ l.Holds key → Lru.find (entries l.heap nodes) key = none := by
    intro key hkey
    rw [hl.holds_iff] at hkey
    exact Lru.find_eq_none.2 fun e he heq => hkey ⟨e, he, heq⟩
  constructor
  · rw [hl.length_entries]
    exact Int.ofNat_le.2 hr.size
  · intro key hkey
    have hlast := hr.find_eq_lastSet ((hl.holds_iff key).1 hkey)
    cases hfound : Lru.find (entries l.heap nodes) key with
    | none =>
      obtain ⟨e, he, heq⟩ := (hl.holds_iff key).1 hkey
      exact absurd heq (Lru.find_eq_none.1 hfound e he)
    | some v => exact ⟨v, (hfind key).trans hfound, hlast.symm.trans hfound⟩
  · intro key hkey
    rw [hfind, hnone key hkey]
  · intro key v hkey hroom
    obtain ⟨l', nodes', hset, hl', hentries⟩ := hl.set key v
    rw [hl.length_entries, Int.ofNat_lt] at hroom
    rw [Lru.grows hroom (hnone key hkey)] at hentries
    refine ⟨l', hset, fun key' => ?_⟩
    rw [hl'.holds_iff, hl.holds_iff, hentries]
    simp [eq_comm]
  · intro key v hkey hfull
    obtain ⟨l', nodes', hset, hl', hentries⟩ := hl.set key v
    rw [hl.length_entries, Int.ofNat_inj] at hfull
    obtain ⟨old, hold, holdest, hkeys⟩ := hr.evicts (by decide) hfull (hnone key hkey) v
    refine ⟨l', old.1, hset, (hl.holds_iff _).2 ⟨old, hold, rfl⟩, ?_, fun key' => ?_⟩
    · intro key' hkey' hne
      obtain ⟨e, he, rfl⟩ := (hl.holds_iff key').1 hkey'
      exact holdest e he hne
    · rw [hl'.holds_iff, hl.holds_iff, hentries]
      exact hkeys key'

end ParseLRU

open ParseLRU (Linked IsLru)

/-- A run of any calls does not panic and answers as the abstract cache does; its nodes are
linked both ways, and it is a cache of the keys used last. -/
theorem parseLRU_refines_lru {V : Type} [Inhabited V] (ops : List (Access String V)) :
    ∃ l nodes, ParseLRU.empty.run ops = some (l, Lru.answers parseLRUCap [] ops) ∧
      Linked l nodes ∧
      ParseLRU.entries l.heap nodes = ops.foldl (Lru.step parseLRUCap) [] ∧
      IsLru l ops.reverse := by
  obtain ⟨l, nodes, hrun, hl, hentries⟩ := ParseLRU.linked_empty.run ops
  refine ⟨l, nodes, hrun, hl, hentries, hl.isLru ?_⟩
  have hrecent := (Lru.Recent.empty parseLRUCap).run (by decide) ops
  rw [List.append_nil] at hrecent
  rw [hentries]
  exact hrecent

section Parse

variable {loc : Type} (P : Platform loc)

/-- `parseE164` over the cache. -/
def cachedParseE164 (l : ParseLRU Go.ParsedNumber) (phone : String) :
    Option (Option Go.ParsedNumber × ParseLRU Go.ParsedNumber) :=
  match l.get phone with
  | (some v, l) => some (some v, l)
  | (none, l) =>
    match Go.parseE164 P phone with
    | none => some (none, l)
    | some v => (l.set phone v).map fun l => (some v, l)

def cachedParses (l : ParseLRU Go.ParsedNumber) :
    List String → Option (List (Option Go.ParsedNumber) × ParseLRU Go.ParsedNumber)
  | [] => some ([], l)
  | phone :: phones =>
    (cachedParseE164 P l phone).bind fun r =>
      (cachedParses r.2 phones).map fun rest => (r.1 :: rest.1, rest.2)

/-- Every number of the cache stands under the text it was parsed from. -/
def Parsed (l : ParseLRU Go.ParsedNumber) : Prop :=
  ∃ nodes, Linked l nodes ∧
    ∀ e ∈ ParseLRU.entries l.heap nodes, Go.parseE164 P e.1 = some e.2

variable {P} {l : ParseLRU Go.ParsedNumber}

theorem Parsed.cachedParseE164 (hl : Parsed P l) (phone : String) :
    ∃ l', cachedParseE164 P l phone = some (Go.parseE164 P phone, l') ∧ Parsed P l' := by
  obtain ⟨nodes, hlinked, hparsed⟩ := hl
  obtain ⟨nodes₁, hl₁, hstep, hfind⟩ := hlinked.get phone
  have hparsed₁ : ∀ e ∈ ParseLRU.entries (l.get phone).2.heap nodes₁,
      Go.parseE164 P e.1 = some e.2 := by
    rw [hstep]
    exact Lru.forall_mem_step hparsed fun _ _ h => nomatch h
  unfold Tz.cachedParseE164
  cases hget : l.get phone with
  | mk found l₁ =>
    rw [hget] at hl₁ hparsed₁ hfind
    cases found with
    | some v =>
      have hvalue := hparsed (phone, v) (Lru.find_eq_some hfind.symm)
      dsimp only at hvalue ⊢
      rw [hvalue]
      exact ⟨l₁, rfl, nodes₁, hl₁, hparsed₁⟩
    | none =>
      dsimp only
      cases hparse : Go.parseE164 P phone with
      | none => exact ⟨l₁, rfl, nodes₁, hl₁, hparsed₁⟩
      | some v =>
        obtain ⟨l₂, nodes₂, hset, hl₂, hentries⟩ := hl₁.set phone v
        dsimp only
        rw [hset]
        refine ⟨l₂, rfl, nodes₂, hl₂, ?_⟩
        rw [hentries]
        refine Lru.forall_mem_step hparsed₁ fun k v' h => ?_
        cases h
        exact hparse

/-- Parsing through the cache never panics and gives what parsing without it gives. -/
theorem cachedParses_eq (hl : Parsed P l) (phones : List String) :
    ∃ l', cachedParses P l phones = some (phones.map (Go.parseE164 P), l') ∧ Parsed P l' := by
  induction phones generalizing l with
  | nil => exact ⟨l, rfl, hl⟩
  | cons phone phones ih =>
    obtain ⟨l₁, hparse, hl₁⟩ := hl.cachedParseE164 phone
    obtain ⟨l', hrun, hl'⟩ := ih hl₁
    refine ⟨l', ?_, hl'⟩
    unfold cachedParses
    rw [hparse, Option.bind_some, hrun]
    rfl

theorem parsed_empty [Inhabited Go.ParsedNumber] : Parsed P ParseLRU.empty :=
  ⟨[], ParseLRU.linked_empty, fun _ h => absurd h List.not_mem_nil⟩

theorem cachedParses_fresh [Inhabited Go.ParsedNumber] (phones : List String) :
    ∃ l', cachedParses P ParseLRU.empty phones = some (phones.map (Go.parseE164 P), l') := by
  obtain ⟨l', hrun, -⟩ := cachedParses_eq (parsed_empty (P := P)) phones
  exact ⟨l', hrun⟩

end Parse

end Tz

end Vici2
