import Vici2.Delimited
import Vici2.GoTime
import Vici2.KeyedCount
import Vici2.Runs
import Vici2.TzResolver

/-! The resolver's cache of campaign time zones. A set is to evict the first entry of an order
list when the map outgrows its capacity, but nothing ever enters that list. -/

namespace Vici2

namespace Tz

structure CampaignCache where
  m : Finmap fun _ : String => CampaignEntry
  cap : Nat
  order : List String

def newCampaignCache (cap : Nat) : CampaignCache := ⟨∅, cap, []⟩

def campaignTTL : Duration := 5 * nsPerMinute

namespace CampaignCache

variable (c : CampaignCache) (now : Instant) (id iana : String)

def get : Option String × CampaignCache :=
  match c.m.lookup id with
  | none => (none, c)
  | some e => if e.expiresAt < now then (none, { c with m := c.m.erase id }) else (some e.iana, c)

def set : CampaignCache :=
  let m := c.m.insert id ⟨iana, now + campaignTTL⟩
  if c.cap < m.keys.card then
    match c.order.find? fun k => (m.lookup k).isSome with
    | none => { c with m := m }
    | some k => { c with m := m.erase k }
  else { c with m := m }

end CampaignCache

inductive CampaignOp
  | get (now : Instant) (id : String)
  | set (now : Instant) (id iana : String)

def CampaignCache.step (c : CampaignCache) : CampaignOp → CampaignCache
  | .get now id => (c.get now id).2
  | .set now id iana => c.set now id iana

namespace CampaignCache

def Bounded (c : CampaignCache) : Prop := c.m.keys.card ≤ c.cap

/-- A set meets a new campaign only while the cache has room for it. -/
def RoomFor (c : CampaignCache) : CampaignOp → Prop
  | .get _ _ => True
  | .set _ id _ => id ∈ c.m ∨ c.m.keys.card < c.cap

variable {c : CampaignCache} {now : Instant} {id iana : String}

/-- The order list stays empty, so there is nothing to evict. -/
theorem set_eq (h : c.order = []) :
    c.set now id iana = { c with m := c.m.insert id ⟨iana, now + campaignTTL⟩ } := by
  unfold set
  rw [h]
  dsimp only [List.find?_nil]
  rw [ite_self]

theorem get_cases :
    (c.get now id).2 = c ∨ (c.get now id).2 = { c with m := c.m.erase id } := by
  unfold get
  cases c.m.lookup id with
  | none => exact Or.inl rfl
  | some e =>
    by_cases hrun : e.expiresAt < now
    · right
      simp only [if_pos hrun]
    · left
      simp only [if_neg hrun]

theorem step_order (h : c.order = []) (op : CampaignOp) : (c.step op).order = [] := by
  cases op with
  | get now id =>
    show (c.get now id).2.order = []
    rcases @get_cases c now id with hsame | herase
    · rw [hsame]
      exact h
    · rw [herase]
      exact h
  | set now id iana =>
    show (c.set now id iana).order = []
    rw [set_eq h]
    exact h

theorem step_cap (op : CampaignOp) : (c.step op).cap = c.cap := by
  cases op with
  | get now id =>
    show (c.get now id).2.cap = c.cap
    rcases @get_cases c now id with hsame | herase
    · rw [hsame]
    · rw [herase]
  | set now id iana =>
    show (c.set now id iana).cap = c.cap
    unfold set
    dsimp only
    split
    · split
      · rfl
      · rfl
    · rfl

/-- A campaign of the map is updated in place, a new one takes a place of its own. -/
theorem card_insert (m : Finmap fun _ : String => CampaignEntry) (e : CampaignEntry) :
    (m.insert id e).keys.card = m.keys.card + if id ∈ m then 0 else 1 := by
  have hkeys : (m.insert id e).keys = insert id m.keys := by
    ext x
    rw [Finmap.mem_keys, Finmap.mem_insert, Finset.mem_insert, Finmap.mem_keys]
  rw [hkeys]
  by_cases hmem : id ∈ m
  · rw [if_pos hmem, Finset.insert_eq_of_mem (Finmap.mem_keys.2 hmem)]
    rfl
  · rw [if_neg hmem, Finset.card_insert_of_notMem (fun h => hmem (Finmap.mem_keys.1 h))]

theorem bounded_step_iff (h : c.order = []) (hb : c.Bounded) (op : CampaignOp) :
    (c.step op).Bounded ↔ c.RoomFor op := by
  unfold Bounded at hb ⊢
  cases op with
  | get now id =>
    refine iff_of_true ?_ trivial
    show (c.get now id).2.m.keys.card ≤ (c.get now id).2.cap
    rcases @get_cases c now id with hsame | herase
    · rw [hsame]
      exact hb
    · rw [herase]
      dsimp only
      rw [Finmap.keys_erase]
      exact (Finset.card_erase_le).trans hb
  | set now id iana =>
    show (c.set now id iana).m.keys.card ≤ (c.set now id iana).cap ↔ _ ∨ _
    rw [set_eq h]
    dsimp only
    rw [card_insert]
    by_cases hmem : id ∈ c.m
    · rw [if_pos hmem]
      exact iff_of_true hb (Or.inl hmem)
    · rw [if_neg hmem, or_iff_right hmem]
      exact Nat.lt_iff_add_one_le.symm

end CampaignCache

open CampaignCache (Bounded RoomFor)

/-- The cache keeps within its capacity exactly in the runs that never set a new campaign in a
full cache. -/
theorem campaignCache_bounded_iff (cap : Nat) (l : List CampaignOp) :
    Always CampaignCache.step Bounded (newCampaignCache cap) l ↔
      EachStep CampaignCache.step RoomFor (newCampaignCache cap) l := by
  apply always_iff_eachStep (I := fun c => c.order = [])
  · intro c op h _ _
    exact CampaignCache.step_order h op
  · intro c op h hb
    exact CampaignCache.bounded_step_iff h hb op
  · rfl
  · exact Nat.zero_le cap

theorem get_eq_campaignGet {loc : Type} (r : Go.Resolver loc) (c : CampaignCache) (now : Instant)
    (id : String) :
    (c.get now id).1 = Go.campaignGet { r with campaignLRU := c.m.lookup } now id := by
  unfold CampaignCache.get Go.campaignGet
  dsimp only
  cases c.m.lookup id with
  | none => rfl
  | some e =>
    dsimp only
    split
    · rfl
    · rfl

/-- Whatever its capacity, the cache holds every one of the campaigns that were set. -/
theorem card_after_sets {c : CampaignCache} (h : c.order = []) (now : Instant) (iana : String)
    {ids : List String} (hids : ids.Nodup) (hnew : ∀ id ∈ ids, id ∉ c.m) :
    ((ids.map fun id => .set now id iana).foldl CampaignCache.step c).m.keys.card =
      c.m.keys.card + ids.length := by
  induction ids generalizing c with
  | nil => rfl
  | cons id ids ih =>
    obtain ⟨hid, hids⟩ := List.nodup_cons.1 hids
    have hset : c.step (.set now id iana) =
        { c with m := c.m.insert id ⟨iana, now + campaignTTL⟩ } := CampaignCache.set_eq h
    rw [List.map_cons, List.foldl_cons, ih (CampaignCache.step_order h _) hids, hset]
    · dsimp only
      rw [CampaignCache.card_insert, if_neg (hnew id List.mem_cons_self), List.length_cons]
      omega
    · intro x hx
      rw [hset]
      dsimp only
      rw [Finmap.mem_insert, not_or]
      refine ⟨?_, hnew x (List.mem_cons_of_mem id hx)⟩
      rintro rfl
      exact hid hx

theorem foldl_cap (l : List CampaignOp) (c : CampaignCache) :
    (l.foldl CampaignCache.step c).cap = c.cap := by
  induction l generalizing c with
  | nil => rfl
  | cons op l ih => rw [List.foldl_cons, ih, CampaignCache.step_cap]

/-- The first `n` campaigns get their time zone. -/
def campaignSets (n : Nat) : List CampaignOp :=
  ((List.range n).map Nat.repr).map fun id => .set 0 id "America/Denver"

theorem not_always_bounded (cap : Nat) :
    ¬ Always CampaignCache.step Bounded (newCampaignCache cap) (campaignSets (cap + 1)) := by
  intro h
  have hlast := h.last
  have hids : ((List.range (cap + 1)).map Nat.repr).Nodup :=
    List.nodup_range.map fun _ _ heq => Delimited.natRepr_inj heq
  have hcard := card_after_sets (c := newCampaignCache cap) rfl 0 "America/Denver" hids
    fun _ _ => Finmap.notMem_empty
  have hcap : ((campaignSets (cap + 1)).foldl CampaignCache.step (newCampaignCache cap)).cap =
      cap := foldl_cap _ _
  rw [List.length_map, List.length_range] at hcard
  unfold Bounded at hlast
  rw [hcap] at hlast
  have hempty : (newCampaignCache cap).m.keys.card = 0 := rfl
  unfold campaignSets at hlast
  omega

/-- A campaign more than the resolver's cache has places for. -/
theorem campaignCache_outgrows :
    ¬ Always CampaignCache.step Bounded (newCampaignCache 1000) (campaignSets 1001) :=
  not_always_bounded 1000

end Tz

end Vici2
