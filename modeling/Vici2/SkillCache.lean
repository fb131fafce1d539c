import Vici2.PoolCache

/-! The in-process cache of agent skills, whose entries are replaced and deleted as a whole. -/

namespace Vici2

open Invalidation (Caller Loaded Log seenCalls seenCalls_of_none seenCalls_of_some
  seenCalls_setPhase seenCalls_update)

namespace Queue

/-- In nanoseconds. -/
def skillCacheTTL : Int := 300000000000

structure SkillCacheEntry (δ : Type) where
  skillSet : Loaded δ
  loadedAt : Int

inductive SkillPhase (δ : Type)
  | looking
  | missed
  | loading (begun : Nat)
  | loaded (l : Loaded δ)

abbrev SkillCall (δ : Type) := Caller Int (SkillPhase δ)

/-- The cache with the calls under way. Skill sets are `δ`. -/
structure SkillCache (δ ι : Type) where
  log : Log Int δ := {}
  now : Int
  entries : Int → Option (SkillCacheEntry δ)
  gets : ι → Option (SkillCall δ)
  invalidates : ι → Option (Int × Nat)

/-- `NewSkillCache`, at the time `now`. -/
def newSkillCache (δ ι : Type) (now : Int) : SkillCache δ ι where
  now := now
  entries _ := none
  gets _ := none
  invalidates _ := none

inductive SkillAction (δ ι : Type)
  | wait (d : Nat)
  | get (i : ι) (userID : Int)
  | readEntry (i : ι)
  | beginLoad (i : ι)
  | endLoad (i : ι) (result : Except String δ)
  | writeEntry (i : ι)
  | invalidate (j : ι) (userID : Int)
  | deleteEntry (j : ι)

section Act

variable {δ ι : Type} [DecidableEq ι]

namespace SkillCache

def setPhase (s : SkillCache δ ι) (i : ι) (call : SkillCall δ) (phase : SkillPhase δ) :
    SkillCache δ ι :=
  { s with gets := Function.update s.gets i (some { call with phase := phase }) }

def returns (s : SkillCache δ ι) (i : ι) (call : SkillCall δ) (l : Loaded δ) : SkillCache δ ι :=
  { s with
    log := s.log.answer call.key call.started l
    gets := Function.update s.gets i none }

def act (s : SkillCache δ ι) : SkillAction δ ι → SkillCache δ ι
  | .wait d => { s with now := s.now + d }
  | .get i userID =>
    match s.gets i with
    | none =>
      { s with gets := Function.update s.gets i (some ⟨userID, s.log.clock, .looking⟩) }
    | some _ => s
  | .readEntry i =>
    match s.gets i with
    | some call =>
      match call.phase, s.entries call.key with
      | .looking, some e =>
        if s.now - e.loadedAt < skillCacheTTL then s.returns i call e.skillSet
        else s.setPhase i call .missed
      | .looking, none => s.setPhase i call .missed
      | _, _ => s
    | none => s
  | .beginLoad i =>
    match s.gets i with
    | some call =>
      match call.phase with
      | .missed => s.setPhase i call (.loading s.log.clock)
      | _ => s
    | none => s
  | .endLoad i result =>
    match s.gets i with
    | some call =>
      match call.phase, result with
      | .loading begun, .ok data => s.setPhase i call (.loaded ⟨data, begun⟩)
      | .loading _, .error _ => { s with gets := Function.update s.gets i none }
      | _, _ => s
    | none => s
  | .writeEntry i =>
    match s.gets i with
    | some call =>
      match call.phase with
      | .loaded l =>
        -- an entry deleted since the load began is put back
        { s.returns i call l with
          entries := Function.update s.entries call.key (some ⟨l, s.now⟩) }
      | _ => s
    | none => s
  | .invalidate j userID =>
    match s.invalidates j with
    | none =>
      { s with invalidates := Function.update s.invalidates j (some (userID, s.log.clock)) }
    | some _ => s
  | .deleteEntry j =>
    match s.invalidates j with
    | some (userID, begun) =>
      { s with
        log := s.log.finish userID begun
        entries := Function.update s.entries userID none
        invalidates := Function.update s.invalidates j none }
    | none => s

def step (s : SkillCache δ ι) (a : SkillAction δ ι) : SkillCache δ ι :=
  { s.act a with log := (s.act a).log.tick }

/-- No invalidation of the agent that began after the load of what is stored is finished. -/
def StoresFresh (log : Log Int δ) : Option (SkillCall δ) → Prop
  | some ⟨userID, _, .loaded l⟩ => log.Fresh userID l.begun
  | _ => True

instance (log : Log Int δ) : DecidablePred (StoresFresh log)
  | some ⟨userID, _, .loaded l⟩ => inferInstanceAs (Decidable (log.Fresh userID l.begun))
  | none => isTrue trivial
  | some ⟨_, _, .looking⟩ => isTrue trivial
  | some ⟨_, _, .missed⟩ => isTrue trivial
  | some ⟨_, _, .loading _⟩ => isTrue trivial

def StoreOk (s : SkillCache δ ι) : SkillAction δ ι → Prop
  | .writeEntry i => StoresFresh s.log (s.gets i)
  | _ => True

instance (s : SkillCache δ ι) : DecidablePred s.StoreOk
  | .writeEntry i => inferInstanceAs (Decidable (StoresFresh s.log (s.gets i)))
  | .wait _ | .get _ _ | .readEntry _ | .beginLoad _ | .endLoad _ _ | .invalidate _ _
  | .deleteEntry _ => isTrue trivial

end SkillCache

end Act

namespace SkillCache

variable {δ ι : Type}

def SkillPhase.begun : SkillPhase δ → Option Nat
  | .loading begun => some begun
  | .loaded l => some l.begun
  | _ => none

def seen (s : SkillCache δ ι) : Invalidation.Cache Int δ ι where
  log := s.log
  slot := Option.map SkillCacheEntry.skillSet ∘ s.entries
  calls := seenCalls SkillPhase.begun s.gets
  invalidations := s.invalidates

variable {s : SkillCache δ ι} {i j : ι} {call : SkillCall δ}

theorem seen_slot_update (userID : Int) (e : Option (SkillCacheEntry δ)) :
    Option.map SkillCacheEntry.skillSet ∘ Function.update s.entries userID e =
      Function.update s.seen.slot userID (e.map SkillCacheEntry.skillSet) :=
  Function.comp_update _ _ _ _

variable [DecidableEq ι]

/-- The step from `s` to `s'` is one that the callers see, or is not seen at all. -/
def Seen (s s' : SkillCache δ ι) : Prop := ∃ op, s.seen.StoreOk op ∧ s'.seen = s.seen.act op

theorem Seen.skip {s' : SkillCache δ ι} (h : s'.seen = s.seen) : Seen s s' := ⟨.skip, trivial, h⟩

theorem setPhase_seen (h : s.gets i = some call) {phase : SkillPhase δ}
    (hbegun : SkillPhase.begun phase = SkillPhase.begun call.phase) :
    Seen s (s.setPhase i call phase) :=
  Seen.skip (Invalidation.Cache.ext rfl rfl (seenCalls_setPhase h hbegun) rfl)

theorem get_seen (userID : Int) : Seen s (s.act (.get i userID)) := by
  simp only [act]
  split
  · next hnone =>
    refine ⟨.get i userID, trivial, ?_⟩
    have hcalls : s.seen.calls i = none := seenCalls_of_none hnone
    simp only [Invalidation.Cache.act, hcalls]
    exact Invalidation.Cache.ext rfl rfl (seenCalls_update _) rfl
  · exact Seen.skip rfl

theorem readEntry_seen : Seen s (s.act (.readEntry i)) := by
  simp only [act]
  split
  · next call hcall =>
    split
    · next e hphase he =>
      have hbegun : SkillPhase.begun call.phase = none := by
        rw [hphase]
        rfl
      split
      · refine ⟨.hit i, trivial, ?_⟩
        have hslot : s.seen.slot call.key = some e.skillSet := by simp [seen, he]
        have hseen : s.seen.calls i = some ⟨call.key, call.started, none⟩ :=
          seenCalls_of_some hcall hbegun
        simp only [Invalidation.Cache.act, hseen, hslot]
        exact Invalidation.Cache.ext rfl rfl (seenCalls_update _) rfl
      · exact setPhase_seen hcall hbegun.symm
    · next hphase _ =>
      apply setPhase_seen hcall
      rw [hphase]
      rfl
    · exact Seen.skip rfl
  · exact Seen.skip rfl

theorem beginLoad_seen : Seen s (s.act (.beginLoad i)) := by
  simp only [act]
  split
  · next call hcall =>
    split
    · next hphase =>
      refine ⟨.load i, trivial, ?_⟩
      have hseen : s.seen.calls i = some ⟨call.key, call.started, none⟩ :=
        seenCalls_of_some hcall (by rw [hphase]; rfl)
      simp only [Invalidation.Cache.act, hseen]
      exact Invalidation.Cache.ext rfl rfl (seenCalls_update _) rfl
    · exact Seen.skip rfl
  · exact Seen.skip rfl

theorem endLoad_seen (result : Except String δ) : Seen s (s.act (.endLoad i result)) := by
  simp only [act]
  split
  · next call hcall =>
    split
    · next begun data hphase =>
      apply setPhase_seen hcall
      rw [hphase]
      rfl
    · refine ⟨.fail i, trivial, ?_⟩
      exact Invalidation.Cache.ext rfl rfl (seenCalls_update _) rfl
    · exact Seen.skip rfl
  · exact Seen.skip rfl

theorem writeEntry_seen (hok : s.StoreOk (.writeEntry i)) : Seen s (s.act (.writeEntry i)) := by
  simp only [act]
  split
  · next call hcall =>
    split
    · next l hphase =>
      have hseen : s.seen.calls i = some ⟨call.key, call.started, some l.begun⟩ :=
        seenCalls_of_some hcall (by rw [hphase]; rfl)
      refine ⟨.store i l.data, ?_, ?_⟩
      · intro key started begun hcalls
        rw [hseen] at hcalls
        cases hcalls
        have hfresh : StoresFresh s.log (s.gets i) := hok
        obtain ⟨userID, started, phase⟩ := call
        obtain rfl : phase = .loaded l := hphase
        rw [hcall] at hfresh
        exact hfresh
      · simp only [Invalidation.Cache.act, hseen]
        exact Invalidation.Cache.ext rfl (seen_slot_update _ _) (seenCalls_update _) rfl
    · exact Seen.skip rfl
  · exact Seen.skip rfl

theorem invalidate_seen (userID : Int) : Seen s (s.act (.invalidate j userID)) := by
  simp only [act]
  split
  · next hnone =>
    refine ⟨.invalidate j userID, trivial, ?_⟩
    have hpending : s.seen.invalidations j = none := hnone
    simp only [Invalidation.Cache.act, hpending]
    rfl
  · exact Seen.skip rfl

theorem deleteEntry_seen : Seen s (s.act (.deleteEntry j)) := by
  simp only [act]
  split
  · next userID begun hj =>
    refine ⟨.finish j, trivial, ?_⟩
    have hpending : s.seen.invalidations j = some (userID, begun) := hj
    have hslot := seen_slot_update (s := s) userID none
    simp only [Invalidation.Cache.act, hpending]
    exact Invalidation.Cache.ext rfl hslot rfl rfl
  · exact Seen.skip rfl

theorem act_seen (a : SkillAction δ ι) (hok : s.StoreOk a) : Seen s (s.act a) := by
  cases a with
  | wait d => exact Seen.skip rfl
  | get i userID => exact get_seen userID
  | readEntry i => exact readEntry_seen
  | beginLoad i => exact beginLoad_seen
  | endLoad i result => exact endLoad_seen result
  | writeEntry i => exact writeEntry_seen hok
  | invalidate j userID => exact invalidate_seen userID
  | deleteEntry j => exact deleteEntry_seen

theorem step_inv (s : SkillCache δ ι) (a : SkillAction δ ι) (h : s.seen.Inv) (hok : s.StoreOk a) :
    (s.step a).seen.Inv := by
  obtain ⟨op, hop, hseen⟩ := act_seen a hok
  have hinv : (s.act a).seen.Inv := by
    rw [hseen]
    exact h.act hop
  exact hinv.tick

theorem forgets_along_run {as : List (SkillAction δ ι)} {now : Int}
    (hok : EachStep step StoreOk (newSkillCache δ ι now) as) :
    Always step (fun s => s.log.Forgets) (newSkillCache δ ι now) as := by
  have hstart : (newSkillCache δ ι now).seen.Inv := Invalidation.Cache.empty_inv
  have hinv := always_of_eachStep (I := fun s => s.seen.Inv) step_inv hstart hok
  exact hinv.mono fun _ h => h.forgets

end SkillCache

end Queue

namespace Invalidation

open Pool (newCache CacheAction)
open Queue (newSkillCache SkillAction SkillCache)

/-- Both caches forget what is invalidated, in a run that stores no data whose load began before
an invalidation that is finished. -/
theorem caches_forget (δ ι : Type) [DecidableEq ι] (now : Int) :
    (∀ as : List (CacheAction δ ι),
      EachStep Pool.Cache.step Pool.Cache.StoreOk (newCache δ ι now) as →
        Always Pool.Cache.step (fun s => s.log.Forgets) (newCache δ ι now) as) ∧
    (∀ as : List (SkillAction δ ι),
      EachStep SkillCache.step SkillCache.StoreOk (newSkillCache δ ι now) as →
        Always SkillCache.step (fun s => s.log.Forgets) (newSkillCache δ ι now) as) :=
  ⟨fun _ => Pool.Cache.forgets_along_run, fun _ => SkillCache.forgets_along_run⟩

/-- The entry is marked after a store, and the call behind that loads anew. -/
def poolReload : List (CacheAction Nat Nat) :=
  [.get 0 7, .findEntry 0, .beginLoad 0, .endLoad 0 (.ok 10), .ensureEntry 0, .writeEntry 0,
    .invalidate 1 7, .findInvalid 1, .markInvalid 1, .get 2 7, .findEntry 2, .readEntry 2,
    .beginLoad 2, .endLoad 2 (.ok 11), .ensureEntry 2, .writeEntry 2]

def skillReload : List (SkillAction Nat Nat) :=
  [.get 0 7, .readEntry 0, .beginLoad 0, .endLoad 0 (.ok 10), .writeEntry 0, .invalidate 1 7,
    .deleteEntry 1, .get 2 7, .readEntry 2, .beginLoad 2, .endLoad 2 (.ok 11), .writeEntry 2]

theorem caches_forget_reloaded :
    Always Pool.Cache.step (fun s => s.log.Forgets) (newCache Nat Nat 0) poolReload ∧
      Always SkillCache.step (fun s => s.log.Forgets) (newSkillCache Nat Nat 0) skillReload :=
  ⟨(caches_forget Nat Nat 0).1 poolReload (by decide),
    (caches_forget Nat Nat 0).2 skillReload (by decide)⟩

/-- The invalidation falls between the load and the store, and the call behind it finds what was
loaded before. -/
def poolRace : List (CacheAction Nat Nat) :=
  [.get 0 7, .findEntry 0, .beginLoad 0, .invalidate 1 7, .findInvalid 1, .endLoad 0 (.ok 10),
    .ensureEntry 0, .writeEntry 0, .get 2 7, .findEntry 2, .readEntry 2]

def skillRace : List (SkillAction Nat Nat) :=
  [.get 0 7, .readEntry 0, .beginLoad 0, .invalidate 1 7, .deleteEntry 1, .endLoad 0 (.ok 10),
    .writeEntry 0, .get 2 7, .readEntry 2]

theorem invalidation_lost_in_load :
    ¬ Always Pool.Cache.step (fun s => s.log.Forgets) (newCache Nat Nat 0) poolRace ∧
      ¬ Always SkillCache.step (fun s => s.log.Forgets) (newSkillCache Nat Nat 0) skillRace := by
  decide

end Invalidation

end Vici2
