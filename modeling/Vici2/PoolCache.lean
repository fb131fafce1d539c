import Vici2.Invalidation

/-! The in-process cache of number pools. Calls of `Get` and of `Invalidate` interleave at the
sections that hold a lock and at the loads from the database. -/

namespace Vici2

open Invalidation (Caller Loaded Log seenCalls seenCalls_of_none seenCalls_of_some
  seenCalls_setPhase seenCalls_update)

namespace Pool

/-- In nanoseconds. -/
def cacheTTL : Int := 300000000000

/-- What was stored last, with `loadedAt`; a new entry has nothing and the zero time. -/
structure CacheEntry (δ : Type) where
  stored : Option (Loaded δ × Int)
  invalid : Bool

def CacheEntry.stale {δ : Type} (e : CacheEntry δ) (now : Int) : Bool :=
  e.invalid || match e.stored with
    | none => true
    | some (_, loadedAt) => cacheTTL < now - loadedAt

inductive GetPhase (δ : Type)
  | looking
  | found
  | missed
  | loading (begun : Nat)
  | loaded (l : Loaded δ)
  | ensured (l : Loaded δ)

abbrev GetCall (δ : Type) := Caller Int (GetPhase δ)

structure InvalidateCall where
  poolID : Int
  begun : Nat
  found : Bool

/-- The cache with the calls under way. Members and config of a pool are `δ`. -/
structure Cache (δ ι : Type) where
  log : Log Int δ := {}
  now : Int
  entries : Int → Option (CacheEntry δ)
  gets : ι → Option (GetCall δ)
  invalidates : ι → Option InvalidateCall

/-- `NewCache`, at the time `now`. -/
def newCache (δ ι : Type) (now : Int) : Cache δ ι where
  now := now
  entries _ := none
  gets _ := none
  invalidates _ := none

/-- The sections of `Get` and `Invalidate`. What `loadFromDB` returns is given with its end. -/
inductive CacheAction (δ ι : Type)
  | wait (d : Nat)
  | get (i : ι) (poolID : Int)
  | findEntry (i : ι)
  | readEntry (i : ι)
  | beginLoad (i : ι)
  | endLoad (i : ι) (result : Except String δ)
  | ensureEntry (i : ι)
  | writeEntry (i : ι)
  | invalidate (j : ι) (poolID : Int)
  | findInvalid (j : ι)
  | markInvalid (j : ι)

section Act

variable {δ ι : Type} [DecidableEq ι]

namespace Cache

def setPhase (s : Cache δ ι) (i : ι) (call : GetCall δ) (phase : GetPhase δ) : Cache δ ι :=
  { s with gets := Function.update s.gets i (some { call with phase := phase }) }

def returns (s : Cache δ ι) (i : ι) (call : GetCall δ) (l : Loaded δ) : Cache δ ι :=
  { s with
    log := s.log.answer call.key call.started l
    gets := Function.update s.gets i none }

def act (s : Cache δ ι) : CacheAction δ ι → Cache δ ι
  | .wait d => { s with now := s.now + d }
  | .get i poolID =>
    match s.gets i with
    | none =>
      { s with gets := Function.update s.gets i (some ⟨poolID, s.log.clock, .looking⟩) }
    | some _ => s
  | .findEntry i =>
    match s.gets i with
    | some call =>
      match call.phase with
      | .looking => s.setPhase i call (if (s.entries call.key).isSome then .found else .missed)
      | _ => s
    | none => s
  | .readEntry i =>
    match s.gets i with
    | some call =>
      match call.phase, s.entries call.key with
      | .found, some e =>
        match e.stored, e.stale s.now with
        | some (l, _), false => s.returns i call l
        | _, _ => s.setPhase i call .missed
      | _, _ => s
    | none => s
  | .beginLoad i =>
    match s.gets i with
    | some call =>
      match call.phase with
      | .missed => s.setPhase i call (.loading s.log.clock)
      | _ => s
    | none => s
  | .endLoad i result =>
    match s.gets i with
    | some call =>
      match call.phase, result with
      | .loading begun, .ok data => s.setPhase i call (.loaded ⟨data, begun⟩)
      | .loading _, .error _ => { s with gets := Function.update s.gets i none }
      | _, _ => s
    | none => s
  | .ensureEntry i =>
    match s.gets i with
    | some call =>
      match call.phase with
      | .loaded l =>
        { s.setPhase i call (.ensured l) with
          entries := Function.update s.entries call.key
            (some ((s.entries call.key).getD ⟨none, false⟩)) }
      | _ => s
    | none => s
  | .writeEntry i =>
    match s.gets i with
    | some call =>
      match call.phase with
      | .ensured l =>
        -- whatever was marked since the load began is cleared
        { s.returns i call l with
          entries := Function.update s.entries call.key (some ⟨some (l, s.now), false⟩) }
      | _ => s
    | none => s
  | .invalidate j poolID =>
    match s.invalidates j with
    | none =>
      { s with
        invalidates := Function.update s.invalidates j (some ⟨poolID, s.log.clock, false⟩) }
    | some _ => s
  | .findInvalid j =>
    match s.invalidates j with
    | some ⟨poolID, begun, false⟩ =>
      match s.entries poolID with
      | none =>
        -- nothing to mark, so the call returns
        { s with
          log := s.log.finish poolID begun
          invalidates := Function.update s.invalidates j none }
      | some _ =>
        { s with invalidates := Function.update s.invalidates j (some ⟨poolID, begun, true⟩) }
    | _ => s
  | .markInvalid j =>
    match s.invalidates j with
    | some ⟨poolID, begun, true⟩ =>
      { s with
        log := s.log.finish poolID begun
        entries := Function.update s.entries poolID
          ((s.entries poolID).map fun e => { e with invalid := true })
        invalidates := Function.update s.invalidates j none }
    | _ => s

def step (s : Cache δ ι) (a : CacheAction δ ι) : Cache δ ι :=
  { s.act a with log := (s.act a).log.tick }

/-- No invalidation of the pool that began after the load of what is stored is finished. -/
def StoresFresh (log : Log Int δ) : Option (GetCall δ) → Prop
  | some ⟨poolID, _, .ensured l⟩ => log.Fresh poolID l.begun
  | _ => True

instance (log : Log Int δ) : DecidablePred (StoresFresh log)
  | some ⟨poolID, _, .ensured l⟩ => inferInstanceAs (Decidable (log.Fresh poolID l.begun))
  | none => isTrue trivial
  | some ⟨_, _, .looking⟩ => isTrue trivial
  | some ⟨_, _, .found⟩ => isTrue trivial
  | some ⟨_, _, .missed⟩ => isTrue trivial
  | some ⟨_, _, .loading _⟩ => isTrue trivial
  | some ⟨_, _, .loaded _⟩ => isTrue trivial

def StoreOk (s : Cache δ ι) : CacheAction δ ι → Prop
  | .writeEntry i => StoresFresh s.log (s.gets i)
  | _ => True

instance (s : Cache δ ι) : DecidablePred s.StoreOk
  | .writeEntry i => inferInstanceAs (Decidable (StoresFresh s.log (s.gets i)))
  | .wait _ | .get _ _ | .findEntry _ | .readEntry _ | .beginLoad _ | .endLoad _ _
  | .ensureEntry _ | .invalidate _ _ | .findInvalid _ | .markInvalid _ => isTrue trivial

end Cache

end Act

/-! What the callers see: the content of an entry that is not marked, and the moments of a
call without its phase. -/

namespace Cache

variable {δ ι : Type}

def content (e : CacheEntry δ) : Option (Loaded δ) :=
  if e.invalid then none else e.stored.map Prod.fst

def GetPhase.begun : GetPhase δ → Option Nat
  | .loading begun => some begun
  | .loaded l => some l.begun
  | .ensured l => some l.begun
  | _ => none

def seenInvalidate (call : InvalidateCall) : Int × Nat := (call.poolID, call.begun)

def seen (s : Cache δ ι) : Invalidation.Cache Int δ ι where
  log := s.log
  slot := (fun e => e.bind content) ∘ s.entries
  calls := seenCalls GetPhase.begun s.gets
  invalidations := Option.map seenInvalidate ∘ s.invalidates

variable {s : Cache δ ι} {i j : ι} {call : GetCall δ}

theorem seen_slot_update (poolID : Int) (e : Option (CacheEntry δ)) :
    (fun e => e.bind content) ∘ Function.update s.entries poolID e =
      Function.update s.seen.slot poolID (e.bind content) :=
  Function.comp_update _ _ _ _

variable [DecidableEq ι]

theorem seen_invalidates_update (j : ι) (x : Option InvalidateCall) :
    Option.map seenInvalidate ∘ Function.update s.invalidates j x =
      Function.update s.seen.invalidations j (x.map seenInvalidate) :=
  Function.comp_update _ _ _ _

/-- The step from `s` to `s'` is one that the callers see, or is not seen at all. -/
def Seen (s s' : Cache δ ι) : Prop := ∃ op, s.seen.StoreOk op ∧ s'.seen = s.seen.act op

theorem Seen.skip {s' : Cache δ ι} (h : s'.seen = s.seen) : Seen s s' := ⟨.skip, trivial, h⟩

theorem setPhase_seen (h : s.gets i = some call) {phase : GetPhase δ}
    (hbegun : GetPhase.begun phase = GetPhase.begun call.phase) :
    Seen s (s.setPhase i call phase) :=
  Seen.skip (Invalidation.Cache.ext rfl rfl (seenCalls_setPhase h hbegun) rfl)

theorem get_seen (poolID : Int) : Seen s (s.act (.get i poolID)) := by
  unfold act
  dsimp only
  split
  · next hnone =>
    refine ⟨.get i poolID, trivial, ?_⟩
    have hcalls : s.seen.calls i = none := seenCalls_of_none hnone
    simp only [Invalidation.Cache.act, hcalls]
    exact Invalidation.Cache.ext rfl rfl (seenCalls_update _) rfl
  · exact Seen.skip rfl

theorem findEntry_seen : Seen s (s.act (.findEntry i)) := by
  unfold act
  dsimp only
  split
  · next call hcall =>
    split
    · next hphase =>
      apply setPhase_seen hcall
      rw [hphase]
      split <;> rfl
    · exact Seen.skip rfl
  · exact Seen.skip rfl

theorem readEntry_seen : Seen s (s.act (.readEntry i)) := by
  unfold act
  dsimp only
  split
  · next call hcall =>
    split
    · next e hphase he =>
      have hbegun : GetPhase.begun call.phase = none := by
        rw [hphase]
        rfl
      split
      · next l loadedAt hstored hstale =>
        refine ⟨.hit i, trivial, ?_⟩
        have hvalid : e.invalid = false := by
          simp only [CacheEntry.stale, Bool.or_eq_false_iff] at hstale
          exact hstale.1
        have hslot : s.seen.slot call.key = some l := by
          simp [seen, he, content, hvalid, hstored]
        have hseen : s.seen.calls i = some ⟨call.key, call.started, none⟩ :=
          seenCalls_of_some hcall hbegun
        simp only [Invalidation.Cache.act, hseen, hslot]
        exact Invalidation.Cache.ext rfl rfl (seenCalls_update _) rfl
      · exact setPhase_seen hcall hbegun.symm
    · exact Seen.skip rfl
  · exact Seen.skip rfl

theorem beginLoad_seen : Seen s (s.act (.beginLoad i)) := by
  unfold act
  dsimp only
  split
  · next call hcall =>
    split
    · next hphase =>
      refine ⟨.load i, trivial, ?_⟩
      have hseen : s.seen.calls i = some ⟨call.key, call.started, none⟩ :=
        seenCalls_of_some hcall (by rw [hphase]; rfl)
      simp only [Invalidation.Cache.act, hseen]
      exact Invalidation.Cache.ext rfl rfl (seenCalls_update _) rfl
    · exact Seen.skip rfl
  · exact Seen.skip rfl

theorem endLoad_seen (result : Except String δ) : Seen s (s.act (.endLoad i result)) := by
  unfold act
  dsimp only
  split
  · next call hcall =>
    split
    · next begun data hphase =>
      apply setPhase_seen hcall
      rw [hphase]
      rfl
    · refine ⟨.fail i, trivial, ?_⟩
      exact Invalidation.Cache.ext rfl rfl (seenCalls_update _) rfl
    · exact Seen.skip rfl
  · exact Seen.skip rfl

/-- A new entry has no content, as the pool had before. -/
theorem ensureEntry_seen : Seen s (s.act (.ensureEntry i)) := by
  unfold act
  dsimp only
  split
  · next call hcall =>
    split
    · next l hphase =>
      apply Seen.skip
      have hbegun : GetPhase.begun (.ensured l) = GetPhase.begun call.phase := by
        rw [hphase]
        rfl
      have hcontent : (some ((s.entries call.key).getD ⟨none, false⟩)).bind content =
          s.seen.slot call.key := by
        cases he : s.entries call.key with
        | none => simp [seen, he, content]
        | some e => simp [seen, he]
      have hslot := seen_slot_update (s := s) call.key
        (some ((s.entries call.key).getD ⟨none, false⟩))
      rw [hcontent, Function.update_eq_self] at hslot
      exact Invalidation.Cache.ext rfl hslot (seenCalls_setPhase hcall hbegun) rfl
    · exact Seen.skip rfl
  · exact Seen.skip rfl

theorem writeEntry_seen (hok : s.StoreOk (.writeEntry i)) : Seen s (s.act (.writeEntry i)) := by
  unfold act
  dsimp only
  split
  · next call hcall =>
    split
    · next l hphase =>
      have hseen : s.seen.calls i = some ⟨call.key, call.started, some l.begun⟩ :=
        seenCalls_of_some hcall (by rw [hphase]; rfl)
      refine ⟨.store i l.data, ?_, ?_⟩
      · intro key started begun hcalls
        rw [hseen] at hcalls
        cases hcalls
        have hfresh : StoresFresh s.log (s.gets i) := hok
        obtain ⟨poolID, started, phase⟩ := call
        obtain rfl : phase = .ensured l := hphase
        rw [hcall] at hfresh
        exact hfresh
      · simp only [Invalidation.Cache.act, hseen]
        exact Invalidation.Cache.ext rfl (seen_slot_update _ _) (seenCalls_update _) rfl
    · exact Seen.skip rfl
  · exact Seen.skip rfl

theorem invalidate_seen (poolID : Int) : Seen s (s.act (.invalidate j poolID)) := by
  unfold act
  dsimp only
  split
  · next hnone =>
    refine ⟨.invalidate j poolID, trivial, ?_⟩
    have hpending : s.seen.invalidations j = none := by simp [seen, hnone]
    simp only [Invalidation.Cache.act, hpending]
    exact Invalidation.Cache.ext rfl rfl rfl (seen_invalidates_update _ _)
  · exact Seen.skip rfl

/-- A pool without an entry has nothing to mark, and its invalidation is finished at once. -/
theorem findInvalid_seen : Seen s (s.act (.findInvalid j)) := by
  unfold act
  dsimp only
  split
  · next poolID begun hj =>
    have hpending : s.seen.invalidations j = some (poolID, begun) := by
      simp [seen, hj, seenInvalidate]
    split
    · next hnone =>
      refine ⟨.finish j, trivial, ?_⟩
      have hempty : s.seen.slot poolID = none := by simp [seen, hnone]
      have hslot : Function.update s.seen.slot poolID none = s.seen.slot := by
        rw [← hempty, Function.update_eq_self]
      simp only [Invalidation.Cache.act, hpending, hslot]
      exact Invalidation.Cache.ext rfl rfl rfl (seen_invalidates_update _ _)
    · apply Seen.skip
      have hsame : Function.update s.seen.invalidations j (some (poolID, begun)) =
          s.seen.invalidations := by
        rw [← hpending, Function.update_eq_self]
      exact Invalidation.Cache.ext rfl rfl rfl ((seen_invalidates_update _ _).trans hsame)
  · exact Seen.skip rfl

theorem markInvalid_seen : Seen s (s.act (.markInvalid j)) := by
  unfold act
  dsimp only
  split
  · next poolID begun hj =>
    refine ⟨.finish j, trivial, ?_⟩
    have hpending : s.seen.invalidations j = some (poolID, begun) := by
      simp [seen, hj, seenInvalidate]
    have hmarked : ((s.entries poolID).map fun e => { e with invalid := true }).bind content =
        none := by
      cases s.entries poolID with
      | none => rfl
      | some e => simp [content]
    have hslot := seen_slot_update (s := s) poolID
      ((s.entries poolID).map fun e => { e with invalid := true })
    rw [hmarked] at hslot
    simp only [Invalidation.Cache.act, hpending]
    exact Invalidation.Cache.ext rfl hslot rfl (seen_invalidates_update _ _)
  · exact Seen.skip rfl

theorem act_seen (a : CacheAction δ ι) (hok : s.StoreOk a) : Seen s (s.act a) := by
  cases a with
  | wait d => exact Seen.skip rfl
  | get i poolID => exact get_seen poolID
  | findEntry i => exact findEntry_seen
  | readEntry i => exact readEntry_seen
  | beginLoad i => exact beginLoad_seen
  | endLoad i result => exact endLoad_seen result
  | ensureEntry i => exact ensureEntry_seen
  | writeEntry i => exact writeEntry_seen hok
  | invalidate j poolID => exact invalidate_seen poolID
  | findInvalid j => exact findInvalid_seen
  | markInvalid j => exact markInvalid_seen

theorem step_inv (s : Cache δ ι) (a : CacheAction δ ι) (h : s.seen.Inv) (hok : s.StoreOk a) :
    (s.step a).seen.Inv := by
  obtain ⟨op, hop, hseen⟩ := act_seen a hok
  have hinv : (s.act a).seen.Inv := by
    rw [hseen]
    exact h.act hop
  exact hinv.tick

theorem forgets_along_run {as : List (CacheAction δ ι)} {now : Int}
    (hok : EachStep step StoreOk (newCache δ ι now) as) :
    Always step (fun s => s.log.Forgets) (newCache δ ι now) as := by
  have hstart : (newCache δ ι now).seen.Inv := Invalidation.Cache.empty_inv
  have hinv := always_of_eachStep (I := fun s => s.seen.Inv) step_inv hstart hok
  exact hinv.mono fun _ h => h.forgets

end Cache

end Pool

end Vici2
