import Mathlib.Data.Finset.Card
import Vici2.NpaIndex
import Vici2.PoolCaps

/-! The choice of a caller id near the called number: members of the pool with its area code, a
neighbouring one or its state, drawn from the index, and else any member of the pool. When the
choice is a healthy member with a number, over runs of the pool. -/

namespace Vici2

namespace Npa

open Pool (Candidate PoolConfig PoolMember capReached pickMember)

structure LocalPresenceResult where
  e164 : String
  didID : Int
  npID : Int
  source : String
  matchTier : Nat
  matchNPA : String
  deriving DecidableEq, Repr

def matchTierExactNPA : Nat := 1

def matchTierNeighborNPA : Nat := 2

def matchTierSameState : Nat := 3

def matchTierPoolFallback : Nat := 4

/-- What a pick draws and reads: the members drawn from each set, and for the pool's own choice
its configuration, the counters of the members, the cursor and a random number. -/
structure PickEnv where
  sample : Nat → List Int
  config : PoolConfig
  daily : Int → Option Int
  concurrent : Int → Option Int
  cursor : Int
  random : Nat

structure Tier where
  matchTier : Nat
  matchNPA : String
  dids : Finset Int

/-- `SRANDMEMBER` with a count of five; a command that fails draws nothing. -/
def IsSample (s : Finset Int) (l : List Int) : Prop :=
  l = [] ∨ (l.Nodup ∧ (∀ d ∈ l, d ∈ s) ∧ l.length = min 5 s.card)

/-- The member of the cache that the map of members has under a DID. -/
def cachedMember (w : NpaWorld) (didID : Int) : Option PoolMember :=
  w.cached.bind fun members => members.reverse.find? fun m => m.didId = didID

/-- Whether the quarantine lookup lets a DID pass, which it does when it fails. -/
def passes (w : NpaWorld) (didID : Int) : Bool := w.unreadable didID ∨ ¬ w.quarantineKey didID

section Pick

variable (stateForNPA : String → String) (neighborNPAs : String → List String) (poolID : Int)

def tiers (w : NpaWorld) (calledNPA : String) : List Tier :=
  ⟨matchTierExactNPA, calledNPA, w.npaIndex calledNPA⟩ ::
    (((neighborNPAs calledNPA).filter (· ≠ "")).map fun npa =>
      ⟨matchTierNeighborNPA, npa, w.npaIndex npa⟩) ++
    if stateForNPA calledNPA ≠ "" then
      [⟨matchTierSameState, "", w.stateIndex (stateForNPA calledNPA)⟩]
    else []

def sampleHealthyDID (w : NpaWorld) (tier : Tier) (candidates : List Int) :
    Option LocalPresenceResult :=
  (candidates.find? (passes w)).map fun didID =>
    { e164 := ((cachedMember w didID).map PoolMember.e164).getD ""
      didID := didID
      npID := ((cachedMember w didID).map PoolMember.npId).getD 0
      source := "pool:" ++ toString poolID
      matchTier := tier.matchTier
      matchNPA := tier.matchNPA }

/-- `filterMembers`, without a hint of an area code. -/
def filterMembers (env : PickEnv) (members : List PoolMember) : List Candidate :=
  (members.filter fun m => ¬ m.quarantined ∧
    ¬ (0 < env.config.dailyCap ∧ capReached (env.daily m.didId) env.config.dailyCap) ∧
    ¬ (0 < env.config.maxConcurrent ∧
      capReached (env.concurrent m.didId) env.config.maxConcurrent)).map fun m =>
    ⟨m, env.daily m.didId, env.concurrent m.didId⟩

/-- `PickFromPool`, without the counters it increments. -/
def pickFromPool (w : NpaWorld) (env : PickEnv) : Option LocalPresenceResult :=
  w.cached.bind fun members =>
    (pickMember env.config.strategy (filterMembers env members) env.cursor env.random).map fun c =>
      { e164 := c.member.e164
        didID := c.member.didId
        npID := c.member.npId
        source := "pool:" ++ toString poolID
        matchTier := matchTierPoolFallback
        matchNPA := "" }

def pickCallerID (w : NpaWorld) (localPresenceEnabled : Bool) (calledE164 : String)
    (env : PickEnv) : Option LocalPresenceResult :=
  if ¬ localPresenceEnabled then pickFromPool poolID w env
  else
    match usableNPA calledE164 with
    | none => pickFromPool poolID w env
    | some calledNPA =>
      ((tiers stateForNPA neighborNPAs w calledNPA).zipIdx.findSome? fun t =>
        sampleHealthyDID poolID w t.1 (env.sample t.2)).or (pickFromPool poolID w env)

/-- A member that is quarantined neither in its row nor by its key. -/
def Healthy (w : NpaWorld) (didID : Int) : Prop :=
  (∃ m ∈ w.rows, m.didId = didID ∧ m.quarantined = false) ∧ w.quarantineKey didID = false

/-- Whatever number is called, whatever is drawn and read, no pick returns an empty caller id or
a DID that is no healthy member. -/
def PickerSafe (w : NpaWorld) : Prop :=
  ∀ (localPresenceEnabled : Bool) (calledE164 : String) (env : PickEnv),
    (∀ calledNPA i t, (tiers stateForNPA neighborNPAs w calledNPA)[i]? = some t →
      usableNPA calledE164 = some calledNPA → IsSample t.dids (env.sample i)) →
    ∀ r, pickCallerID stateForNPA neighborNPAs poolID w localPresenceEnabled calledE164 env =
      some r → r.e164 ≠ "" ∧ Healthy w r.didID

/-- Every indexed DID that the quarantine lookup lets pass is a healthy member whose number the
cache has, and so is every member of the cache that is not quarantined there. -/
structure Sound (w : NpaWorld) : Prop where
  indexed : ∀ npa, ∀ d ∈ w.npaIndex npa, passes w d = true →
    Healthy w d ∧ ∃ m, cachedMember w d = some m ∧ m.e164 ≠ ""
  cached : ∀ members, w.cached = some members → ∀ m ∈ members, m.quarantined = false →
    Healthy w m.didId ∧ m.e164 ≠ ""

variable {stateForNPA neighborNPAs poolID} {dids : Int → String} {w : NpaWorld}

theorem pickFromPool_mem {env : PickEnv} {r : LocalPresenceResult}
    (h : pickFromPool poolID w env = some r) :
    ∃ members, w.cached = some members ∧
      ∃ m ∈ members, m.quarantined = false ∧ r.e164 = m.e164 ∧ r.didID = m.didId := by
  obtain ⟨members, hcached, hpick⟩ := Option.bind_eq_some_iff.1 h
  obtain ⟨c, hc, rfl⟩ := Option.map_eq_some_iff.1 hpick
  obtain ⟨m, hm, rfl⟩ := List.mem_map.1 (Pool.pickMember_mem hc)
  obtain ⟨hmem, hpasses⟩ := List.mem_filter.1 hm
  have hhealthy := (of_decide_eq_true hpasses).1
  exact ⟨members, hcached, m, hmem, Bool.eq_false_iff.2 hhealthy, rfl, rfl⟩

theorem sampleHealthyDID_mem {tier : Tier} {candidates : List Int} {r : LocalPresenceResult}
    (h : sampleHealthyDID poolID w tier candidates = some r) :
    r.didID ∈ candidates ∧ passes w r.didID = true ∧
      r.e164 = ((cachedMember w r.didID).map PoolMember.e164).getD "" := by
  obtain ⟨d, hd, rfl⟩ := Option.map_eq_some_iff.1 h
  exact ⟨List.mem_of_find?_eq_some hd, List.find?_some hd, rfl⟩

/-- What a tier draws from is in some set of the index by area code. -/
theorem mem_npaIndex_of_tier (hw : Inv stateForNPA dids w) {calledNPA : String} {t : Tier}
    (ht : t ∈ tiers stateForNPA neighborNPAs w calledNPA) {d : Int} (hd : d ∈ t.dids) :
    ∃ npa, d ∈ w.npaIndex npa := by
  rcases List.mem_append.1 ht with ht | ht
  · rcases List.mem_cons.1 ht with rfl | ht
    · exact ⟨_, hd⟩
    · obtain ⟨npa, -, rfl⟩ := List.mem_map.1 ht
      exact ⟨npa, hd⟩
  · split at ht
    · obtain rfl := List.mem_singleton.1 ht
      obtain ⟨-, npa, -, -, hnpa⟩ := hw.state _ d hd
      exact ⟨npa, hnpa⟩
    · exact absurd ht List.not_mem_nil

theorem pickerSafe_of_sound (hw : Inv stateForNPA dids w) (h : Sound w) :
    PickerSafe stateForNPA neighborNPAs poolID w := by
  intro enabled called env hsample r hr
  have hfallback : pickFromPool poolID w env = some r → r.e164 ≠ "" ∧ Healthy w r.didID := by
    intro hpool
    obtain ⟨members, hcached, m, hm, hquarantined, he164, hdid⟩ := pickFromPool_mem hpool
    obtain ⟨hhealthy, hnumber⟩ := h.cached members hcached m hm hquarantined
    rw [he164, hdid]
    exact ⟨hnumber, hhealthy⟩
  unfold pickCallerID at hr
  split at hr
  · exact hfallback hr
  · cases hnpa : usableNPA called with
    | none =>
      rw [hnpa] at hr
      exact hfallback hr
    | some calledNPA =>
      rw [hnpa] at hr
      rcases Option.or_eq_some_iff.1 hr with htier | ⟨-, hpool⟩
      · obtain ⟨t, ht, hdraw⟩ := List.exists_of_findSome?_eq_some htier
        obtain ⟨hdrawn, hpasses, he164⟩ := sampleHealthyDID_mem hdraw
        have hget := List.mem_zipIdx_iff_getElem?.1 ht
        have hin : r.didID ∈ t.1.dids := by
          rcases hsample calledNPA t.2 t.1 hget hnpa with hnil | ⟨-, hsub, -⟩
          · rw [hnil] at hdrawn
            exact absurd hdrawn List.not_mem_nil
          · exact hsub _ hdrawn
        obtain ⟨npa, hindexed⟩ := mem_npaIndex_of_tier hw (List.mem_of_getElem? hget) hin
        obtain ⟨hhealthy, m, hm, hnumber⟩ := h.indexed npa r.didID hindexed hpasses
        refine ⟨?_, hhealthy⟩
        rw [he164, hm]
        exact hnumber
      · exact hfallback hpool

/-- Any member of a set may be drawn first. -/
theorem isSample_first {s : Finset Int} {d : Int} (hd : d ∈ s) :
    IsSample s ((d :: (s.erase d).toList).take 5) := by
  have hnodup : (d :: (s.erase d).toList).Nodup := by
    rw [List.nodup_cons]
    exact ⟨by simp, Finset.nodup_toList _⟩
  refine Or.inr ⟨hnodup.sublist (List.take_sublist _ _), fun x hx => ?_, ?_⟩
  · rcases List.mem_cons.1 (List.mem_of_mem_take hx) with rfl | hx
    · exact hd
    · exact Finset.mem_of_mem_erase (Finset.mem_toList.1 hx)
  · rw [List.length_take, List.length_cons, Finset.length_toList, Finset.card_erase_add_one hd]

/-- A draw of the set of the called area code decides the pick. -/
theorem pickCallerID_of_exact {calledE164 calledNPA : String} {env : PickEnv}
    {r : LocalPresenceResult} (hnpa : usableNPA calledE164 = some calledNPA)
    (h : sampleHealthyDID poolID w ⟨matchTierExactNPA, calledNPA, w.npaIndex calledNPA⟩
      (env.sample 0) = some r) :
    pickCallerID stateForNPA neighborNPAs poolID w true calledE164 env = some r := by
  unfold pickCallerID tiers
  rw [if_neg (not_not_intro rfl), hnpa]
  dsimp only
  rw [List.cons_append, List.zipIdx_cons, List.findSome?_cons, h]
  rfl

/-- Without caps, every member of the cache that is not quarantined there may be drawn. -/
theorem exists_pickFromPool (poolID : Int) {members : List PoolMember}
    (hcached : w.cached = some members) {m : PoolMember} (hm : m ∈ members)
    (hquarantined : m.quarantined = false) :
    ∃ env r, pickFromPool poolID w env = some r ∧ r.e164 = m.e164 ∧ r.didID = m.didId := by
  let env : PickEnv := ⟨fun _ => [], ⟨.random, 0, 0⟩, fun _ => none, fun _ => none, 0, 0⟩
  have hmem : (⟨m, none, none⟩ : Candidate) ∈ filterMembers env members := by
    apply List.mem_map.2
    refine ⟨m, List.mem_filter.2 ⟨hm, ?_⟩, rfl⟩
    simp [env, hquarantined]
  obtain ⟨i, hi, hget⟩ := List.getElem_of_mem hmem
  refine ⟨{ env with random := i }, ⟨m.e164, m.didId, m.npId, "pool:" ++ toString poolID,
    matchTierPoolFallback, ""⟩, ?_, rfl, rfl⟩
  have hpick : Pool.pickRandom (filterMembers env members) i = some ⟨m, none, none⟩ := by
    unfold Pool.pickRandom
    rw [Nat.mod_eq_of_lt hi, List.getElem?_eq_getElem hi, hget]
  unfold pickFromPool
  rw [hcached, Option.bind_some]
  exact congrArg (Option.map _) hpick

theorem sound_of_pickerSafe (hw : Inv stateForNPA dids w)
    (h : PickerSafe stateForNPA neighborNPAs poolID w) : Sound w := by
  constructor
  · intro npa d hd hpasses
    let first := (d :: ((w.npaIndex npa).erase d).toList).take 5
    let env : PickEnv :=
      ⟨fun i => if i = 0 then first else [], ⟨.random, 0, 0⟩, fun _ => none, fun _ => none, 0, 0⟩
    have hnpa := hw.npa npa d hd
    have hsample : ∀ calledNPA i t,
        (tiers stateForNPA neighborNPAs w calledNPA)[i]? = some t →
          usableNPA (dids d) = some calledNPA → IsSample t.dids (env.sample i) := by
      intro calledNPA i t ht hcalled
      obtain rfl := Option.some.inj (hnpa.symm.trans hcalled)
      cases i with
      | zero =>
        obtain rfl := Option.some.inj ht
        exact isSample_first hd
      | succ i => exact Or.inl rfl
    have hdraw : (env.sample 0).find? (passes w) = some d := List.find?_cons_of_pos hpasses
    obtain ⟨hnumber, hhealthy⟩ := h true (dids d) env hsample _
      (pickCallerID_of_exact hnpa (congrArg (Option.map _) hdraw))
    refine ⟨hhealthy, ?_⟩
    dsimp only at hnumber
    cases hm : cachedMember w d with
    | none =>
      rw [hm] at hnumber
      exact absurd rfl hnumber
    | some m =>
      rw [hm] at hnumber
      exact ⟨m, rfl, hnumber⟩
  · intro members hcached m hm hquarantined
    obtain ⟨env, r, hpick, he164, hdid⟩ := exists_pickFromPool poolID hcached hm hquarantined
    have hnone : usableNPA "" = none := rfl
    obtain ⟨hnumber, hhealthy⟩ :=
      h false "" env (fun _ _ _ _ hcalled => nomatch hnone.symm.trans hcalled) r hpick
    rw [he164] at hnumber
    rw [hdid] at hhealthy
    exact ⟨hhealthy, hnumber⟩

/-- Lost events and failed reads decide it: a rebuild is exact where no number that left the
pool is still indexed, and the picks are safe where the index and the cache are sound. -/
theorem local_presence_iff (l : List NpaAction) :
    (EachStep (step stateForNPA dids) (ExactAfterRebuild stateForNPA dids) {} l ∧
      Always (step stateForNPA dids) (PickerSafe stateForNPA neighborNPAs poolID) {} l) ↔
    EachStep (step stateForNPA dids) RebuildsFresh {} l ∧
      Always (step stateForNPA dids) Sound {} l := by
  apply and_congr
  · exact eachStep_congr (I := Inv stateForNPA dids) (fun w a hw _ => hw.step a)
      (fun w a hw => exactAfterRebuild_iff hw a) l inv_empty
  · exact always_congr (I := Inv stateForNPA dids) (fun w a hw => hw.step a)
      (fun w hw => ⟨sound_of_pickerSafe hw, pickerSafe_of_sound hw⟩) l inv_empty

/-- The cache holds the rows as they are, the quarantine key of every member says what its row
says and can be read where it is set, and the rows have numbers. -/
structure Settled (w : NpaWorld) : Prop where
  cached : w.cached = some w.rows
  keys : ∀ m ∈ w.rows, w.quarantineKey m.didId = m.quarantined
  readable : ∀ m ∈ w.rows, m.quarantined = true → w.unreadable m.didId = false
  numbers : ∀ m ∈ w.rows, m.e164 ≠ ""

theorem Settled.sound (h : Settled w) (hfresh : NoStale w) : Sound w := by
  have hhealthy : ∀ m ∈ w.rows, m.quarantined = false → Healthy w m.didId := by
    intro m hm hquarantined
    exact ⟨⟨m, hm, rfl, hquarantined⟩, (h.keys m hm).trans hquarantined⟩
  constructor
  · intro npa d hd hpasses
    obtain ⟨m, hm, rfl⟩ := hfresh npa d hd
    have hquarantined : m.quarantined = false := by
      by_contra hset
      have htrue : m.quarantined = true := by simpa using hset
      simp [passes, h.readable m hm htrue, h.keys m hm, htrue] at hpasses
    refine ⟨hhealthy m hm hquarantined, ?_⟩
    have hfound : (cachedMember w m.didId).isSome = true := by
      unfold cachedMember
      rw [h.cached, Option.bind_some, List.find?_isSome]
      exact ⟨m, List.mem_reverse.2 hm, decide_eq_true rfl⟩
    obtain ⟨m', hm'⟩ := Option.isSome_iff_exists.1 hfound
    unfold cachedMember at hm' ⊢
    rw [h.cached, Option.bind_some] at hm' ⊢
    exact ⟨m', hm', h.numbers m' (List.mem_reverse.1 (List.mem_of_find?_eq_some hm'))⟩
  · intro members hmembers m hm hquarantined
    obtain rfl := Option.some.inj (h.cached.symm.trans hmembers)
    exact ⟨hhealthy m hm hquarantined, h.numbers m hm⟩

/-- Where no removal is lost, the picks are safe in every state in which the cache was reloaded
after the last change of the rows and the quarantine keys have followed it. -/
theorem pickerSafe_of_removalHeard {l : List NpaAction} (hl : ∀ a ∈ l, RemovalHeard a) :
    Always (step stateForNPA dids)
      (fun w => Settled w → PickerSafe stateForNPA neighborNPAs poolID w) {} l := by
  refine (noStale_of_removalHeard hl).mono fun w hw hsettled => ?_
  exact pickerSafe_of_sound hw.1 (hsettled.sound hw.2)

end Pick

/-- A number leaves its pool and the event is lost. The rebuild keeps it in its set, and it is
presented. -/
theorem lost_removal_kept :
    let step := step (fun _ => "") (fun _ => "+12125550100")
    let run := [.addDid 1 7 "212" true, .removeDid 7 false, .rebuildPool true]
    ¬ EachStep step (ExactAfterRebuild (fun _ => "") fun _ => "+12125550100") {} run ∧
      ¬ Always step (PickerSafe (fun _ => "") (fun _ => []) 3) {} run := by
  have hindexed : (7 : Int) ∈ ((step (fun _ => "") (fun _ => "+12125550100")) {}
      (.addDid 1 7 "212" true)).npaIndex "212" := by decide
  constructor
  · intro h
    obtain ⟨⟨m, hm, -⟩, -⟩ := (h.2.2.1 "212" 7).1 hindexed
    exact absurd hm List.not_mem_nil
  · intro h
    have hw : Inv (fun _ => "") (fun _ => "+12125550100") _ :=
      (inv_empty.step (.addDid 1 7 "212" true)).step (.removeDid 7 false)
    obtain ⟨⟨⟨m, hm, -⟩, -⟩, -⟩ := (sound_of_pickerSafe hw h.2.2.first).indexed "212" 7 hindexed rfl
    exact absurd hm List.not_mem_nil

end Npa

end Vici2
