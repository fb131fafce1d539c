import Vici2.Hopper
import Vici2.KeyedCount
import Vici2.Runs

/-! Who holds a lead. The store is run together with the history of claims, the
claim behind each lock and the claim behind each in-flight entry; claims are
numbered in the order in which they were granted. -/

namespace Vici2

namespace Hopper

structure HopperClaim where
  leadID : Int
  lockVal : String
  released : Bool
  expired : Bool

def HopperClaim.Live (c : HopperClaim) : Prop := c.released = false ∧ c.expired = false

structure HopperWorld where
  store : HopperStore
  claims : Nat → Option HopperClaim
  next : Nat
  lockOwner : Int → Option Nat
  inFlightOwner : Int → Option Nat

def HopperWorld.empty : HopperWorld :=
  ⟨HopperStore.empty, fun _ => none, 0, fun _ => none, fun _ => none⟩

inductive HopperAction
  | push (leadID : Int) (score : ℚ)
  | claim (instanceID : String) (lockTTLSec nowMs : Int)
  | release (claimNo : Nat) (reinsert : Bool) (score : ℚ)
  | expire (leadID : Int)

def HopperWorld.grant (w : HopperWorld) (store : HopperStore) (leadID : Int) (lockVal : String) :
    HopperWorld where
  store := store
  claims := Function.update w.claims w.next (some ⟨leadID, lockVal, false, false⟩)
  next := w.next + 1
  lockOwner := Function.update w.lockOwner leadID (some w.next)
  inFlightOwner := Function.update w.inFlightOwner leadID (some w.next)

def HopperWorld.giveUp (w : HopperWorld) (store : HopperStore) (claimNo : Nat)
    (c : HopperClaim) : HopperWorld where
  store := store
  claims := Function.update w.claims claimNo (some { c with released := true })
  next := w.next
  lockOwner := Function.update w.lockOwner c.leadID none
  inFlightOwner := Function.update w.inFlightOwner c.leadID none

def markExpired (claims : Nat → Option HopperClaim) : Option Nat → Nat → Option HopperClaim
  | none => claims
  | some h => Function.update claims h ((claims h).map fun c => { c with expired := true })

def step (w : HopperWorld) : HopperAction → HopperWorld
  | .push leadID score => { w with store := push w.store leadID score }
  | .claim instanceID lockTTLSec nowMs =>
    match claim w.store instanceID lockTTLSec nowMs with
    | (.error _, store) => { w with store := store }
    | (.ok (leadID, lockVal), store) =>
      if lockVal = "" then { w with store := store } else w.grant store leadID lockVal
  | .release claimNo reinsert score =>
    match w.claims claimNo with
    | none => w
    | some c =>
      match release w.store c.leadID c.lockVal reinsert score with
      | (false, store) => { w with store := store }
      | (true, store) => w.giveUp store claimNo c
  | .expire leadID =>
    { w with
      store := expireLock w.store leadID
      claims := markExpired w.claims (w.lockOwner leadID)
      lockOwner := Function.update w.lockOwner leadID none }

def Stale (w : HopperWorld) (claimNo : Nat) (c : HopperClaim) : Prop :=
  c.expired = true ∨ ∃ h, w.lockOwner c.leadID = some h ∧ h ≠ claimNo

/-- A stale release leaves the hopper and the in-flight entry of a newer holder
as they are. -/
def StaleReleaseHarmless (w : HopperWorld) : HopperAction → Prop
  | .release claimNo reinsert score => ∀ c, w.claims claimNo = some c → Stale w claimNo c →
    (step w (.release claimNo reinsert score)).store.hopper = w.store.hopper ∧
      ∀ h, claimNo < h → w.inFlightOwner c.leadID = some h →
        ∃ v, (step w (.release claimNo reinsert score)).store.inFlight c.leadID = some v
  | _ => True

def Claimable (s : HopperStore) (leadID : Int) : Prop :=
  leadID ∈ s.hopper ∧ s.lock leadID = none

structure Exclusive (w : HopperWorld) : Prop where
  one_holder : ∀ h h' c c', w.claims h = some c → w.claims h' = some c' → c.Live → c'.Live →
    c.leadID = c'.leadID → h = h'
  not_claimable : ∀ h c, w.claims h = some c → c.Live → ¬ Claimable w.store c.leadID

/-- A stale release meets a lock with another value; or the lock is gone, the
hopper already has what it would insert, and the in-flight entry is not a newer
holder's. -/
def StaleReleaseFenced (w : HopperWorld) : HopperAction → Prop
  | .release claimNo reinsert score => ∀ c, w.claims claimNo = some c → Stale w claimNo c →
    Fences w.store c.leadID c.lockVal ∨
      ((reinsert = true → w.store.hopper.zadd c.leadID score = w.store.hopper) ∧
        ∀ h, w.inFlightOwner c.leadID = some h → h ≤ claimNo)
  | _ => True

structure Inv (w : HopperWorld) : Prop where
  fresh : ∀ h c, w.claims h = some c → h < w.next
  owner : ∀ lead h, w.lockOwner lead = some h → ∃ c, w.claims h = some c ∧ c.leadID = lead
  locked : ∀ lead, w.store.lock lead = none ↔ w.lockOwner lead = none
  live : ∀ h c, w.claims h = some c → c.Live →
    w.lockOwner c.leadID = some h ∧ w.inFlightOwner c.leadID = some h
  entry : ∀ lead h, w.inFlightOwner lead = some h → ∃ v, w.store.inFlight lead = some v
  newest : ∀ lead h, w.lockOwner lead = some h →
    ∀ h' c, w.claims h' = some c → c.leadID = lead → h' ≤ h

theorem Inv.exclusive {w : HopperWorld} (hw : Inv w) : Exclusive w where
  one_holder h h' c c' hc hc' hl hl' he := by
    have hown := (hw.live h c hc hl).1
    have hown' := (hw.live h' c' hc' hl').1
    rw [he, hown'] at hown
    simpa using hown.symm
  not_claimable h c hc hl hcl := by
    have hown := (hw.live h c hc hl).1
    rw [(hw.locked c.leadID).mp hcl.2] at hown
    simp at hown

theorem inv_empty : Inv HopperWorld.empty := by
  constructor <;> simp [HopperWorld.empty, HopperStore.empty]

theorem Inv.sameKeys {w : HopperWorld} (hw : Inv w) {s : HopperStore} (hl : s.lock = w.store.lock)
    (hf : s.inFlight = w.store.inFlight) : Inv { w with store := s } where
  fresh := hw.fresh
  owner := hw.owner
  locked lead := by
    rw [hl]
    exact hw.locked lead
  live := hw.live
  entry lead h he := by
    rw [hf]
    exact hw.entry lead h he
  newest := hw.newest

theorem Inv.grant {w : HopperWorld} (hw : Inv w) {s : HopperStore} {leadID : Int}
    {lockVal : String} {lk : LeadLock} (hfree : w.store.lock leadID = none)
    (hl : s.lock = Function.update w.store.lock leadID (some lk))
    (hf : s.inFlight = Function.update w.store.inFlight leadID (some lockVal)) :
    Inv (w.grant s leadID lockVal) where
  fresh h c hc := by
    simp only [HopperWorld.grant] at hc ⊢
    rcases update_some_eq_some.1 hc with ⟨rfl, -⟩ | ⟨-, hc⟩
    · omega
    · have := hw.fresh h c hc
      omega
  owner lead h ho := by
    simp only [HopperWorld.grant] at ho ⊢
    rcases update_some_eq_some.1 ho with ⟨rfl, rfl⟩ | ⟨-, ho⟩
    · exact ⟨_, Function.update_self .., rfl⟩
    · obtain ⟨c, hc, hcl⟩ := hw.owner lead h ho
      have hlt := hw.fresh h c hc
      exact ⟨c, by rw [Function.update_of_ne (by omega)]; exact hc, hcl⟩
  locked lead := by
    simp only [HopperWorld.grant, hl]
    by_cases hlead : lead = leadID
    · subst hlead
      simp
    · simp only [Function.update_of_ne hlead]
      exact hw.locked lead
  live h c hc hlive := by
    simp only [HopperWorld.grant] at hc ⊢
    rcases update_some_eq_some.1 hc with ⟨rfl, rfl⟩ | ⟨-, hc⟩
    · exact ⟨Function.update_self .., Function.update_self ..⟩
    · obtain ⟨hown, hentry⟩ := hw.live h c hc hlive
      have hne : c.leadID ≠ leadID := by
        intro he
        rw [he, (hw.locked leadID).mp hfree] at hown
        simp at hown
      rw [Function.update_of_ne hne, Function.update_of_ne hne]
      exact ⟨hown, hentry⟩
  entry lead h he := by
    simp only [HopperWorld.grant, hf] at he ⊢
    by_cases hlead : lead = leadID
    · subst hlead
      exact ⟨lockVal, Function.update_self ..⟩
    · rw [Function.update_of_ne hlead] at he ⊢
      exact hw.entry lead h he
  newest lead h ho h' c hc hcl := by
    simp only [HopperWorld.grant] at ho hc
    rcases update_some_eq_some.1 ho with ⟨rfl, rfl⟩ | ⟨hlead, ho⟩
    · rcases update_some_eq_some.1 hc with ⟨rfl, -⟩ | ⟨-, hc⟩
      · omega
      · have := hw.fresh h' c hc
        omega
    · rcases update_some_eq_some.1 hc with ⟨-, rfl⟩ | ⟨-, hc⟩
      · exact absurd hcl.symm hlead
      · exact hw.newest lead h ho h' c hc hcl

theorem Inv.claim {w : HopperWorld} (hw : Inv w) (instanceID : String) (lockTTLSec nowMs : Int) :
    Inv (step w (.claim instanceID lockTTLSec nowMs)) := by
  simp only [step, Hopper.claim]
  by_cases hi : instanceID = ""
  · rw [if_pos hi]
    exact hw
  · rw [if_neg hi]
    rcases claimLeadFromHopper_cases w.store
        (if lockTTLSec ≤ 0 then defaultLockTTLSec else lockTTLSec) instanceID nowMs with
      ⟨hnone, hl, hf, -⟩ | ⟨leadID, rest, -, hfree, -, heq⟩
    · rcases hr : claimLeadFromHopper w.store
        (if lockTTLSec ≤ 0 then defaultLockTTLSec else lockTTLSec) instanceID nowMs with ⟨r, s'⟩
      rw [hr] at hnone hl hf
      obtain rfl : r = none := hnone
      exact hw.sameKeys hl hf
    · rw [heq]
      have hne : instanceID ++ ":" ++ toString nowMs ≠ "" := by
        intro he
        have := congrArg String.length he
        simp at this
      simp only [if_neg hne]
      exact hw.grant hfree rfl rfl

theorem Inv.giveUp {w : HopperWorld} (hw : Inv w) {s : HopperStore} {claimNo : Nat}
    {c : HopperClaim} (hc : w.claims claimNo = some c)
    (hother : ∀ h, w.lockOwner c.leadID = some h → w.inFlightOwner c.leadID = some h → h = claimNo)
    (hl : s.lock = Function.update w.store.lock c.leadID none)
    (hf : s.inFlight = Function.update w.store.inFlight c.leadID none) :
    Inv (w.giveUp s claimNo c) where
  fresh h c' hc' := by
    simp only [HopperWorld.giveUp] at hc' ⊢
    rcases update_some_eq_some.1 hc' with ⟨rfl, -⟩ | ⟨-, hc'⟩
    · exact hw.fresh h c hc
    · exact hw.fresh h c' hc'
  owner lead h ho := by
    simp only [HopperWorld.giveUp] at ho ⊢
    obtain ⟨hlead, ho⟩ := update_none_eq_some.1 ho
    obtain ⟨c', hc', hcl⟩ := hw.owner lead h ho
    have hh : h ≠ claimNo := by
      rintro rfl
      rw [hc] at hc'
      obtain rfl := Option.some.inj hc'
      exact hlead hcl.symm
    exact ⟨c', update_some_eq_some.2 (.inr ⟨hh, hc'⟩), hcl⟩
  locked lead := by
    simp only [HopperWorld.giveUp, hl]
    by_cases hlead : lead = c.leadID
    · subst hlead
      simp
    · simp only [Function.update_of_ne hlead]
      exact hw.locked lead
  live h c' hc' hlive := by
    simp only [HopperWorld.giveUp] at hc' ⊢
    have hh : h ≠ claimNo := by
      rintro rfl
      rw [Function.update_self] at hc'
      obtain rfl := Option.some.inj hc'
      simp [HopperClaim.Live] at hlive
    rw [Function.update_of_ne hh] at hc'
    obtain ⟨hown, hentry⟩ := hw.live h c' hc' hlive
    have hne : c'.leadID ≠ c.leadID := by
      intro he
      rw [he] at hown hentry
      exact hh (hother h hown hentry)
    rw [Function.update_of_ne hne, Function.update_of_ne hne]
    exact ⟨hown, hentry⟩
  entry lead h he := by
    simp only [HopperWorld.giveUp, hf] at he ⊢
    by_cases hlead : lead = c.leadID
    · subst hlead
      simp at he
    · rw [Function.update_of_ne hlead] at he ⊢
      exact hw.entry lead h he
  newest lead h ho h' c' hc' hcl := by
    simp only [HopperWorld.giveUp] at ho hc'
    obtain ⟨hlead, ho⟩ := update_none_eq_some.1 ho
    rcases update_some_eq_some.1 hc' with ⟨-, rfl⟩ | ⟨-, hc'⟩
    · exact absurd hcl.symm hlead
    · exact hw.newest lead h ho h' c' hc' hcl

theorem Inv.release {w : HopperWorld} (hw : Inv w) (claimNo : Nat) (reinsert : Bool) (score : ℚ)
    (hok : StaleReleaseFenced w (.release claimNo reinsert score)) :
    Inv (step w (.release claimNo reinsert score)) := by
  simp only [step]
  cases hc : w.claims claimNo with
  | none => exact hw
  | some c =>
    by_cases hf : Fences w.store c.leadID c.lockVal
    · simp only [release_fenced hf]
      exact hw
    · simp only [release_unfenced hf]
      refine hw.giveUp hc ?_ rfl rfl
      intro h hown hentry
      by_contra hne
      rcases hok c hc (.inr ⟨h, hown, hne⟩) with hfence | ⟨-, hnewer⟩
      · exact hf hfence
      · have hle := hnewer h hentry
        have hge := hw.newest c.leadID h hown claimNo c hc rfl
        omega

theorem markExpired_eq_some {claims : Nat → Option HopperClaim} {o : Option Nat} {h : Nat}
    {c : HopperClaim} (hc : markExpired claims o h = some c) :
    ∃ c', claims h = some c' ∧ c'.leadID = c.leadID ∧
      (c.Live → c = c' ∧ o ≠ some h) := by
  cases o with
  | none => exact ⟨c, hc, rfl, fun _ => ⟨rfl, by simp⟩⟩
  | some k =>
    by_cases hk : h = k
    · subst hk
      simp only [markExpired, Function.update_self, Option.map_eq_some_iff] at hc
      obtain ⟨c', hc', rfl⟩ := hc
      exact ⟨c', hc', rfl, fun hl => by simp [HopperClaim.Live] at hl⟩
    · simp only [markExpired, Function.update_of_ne hk] at hc
      refine ⟨c, hc, rfl, fun _ => ⟨rfl, ?_⟩⟩
      intro he
      exact hk (Option.some.inj he).symm

theorem Inv.expire {w : HopperWorld} (hw : Inv w) (leadID : Int) :
    Inv (step w (.expire leadID)) where
  fresh h c hc := by
    obtain ⟨c', hc', -, -⟩ := markExpired_eq_some hc
    exact hw.fresh h c' hc'
  owner lead h ho := by
    simp only [step] at ho ⊢
    by_cases hlead : lead = leadID
    · subst hlead
      simp at ho
    · rw [Function.update_of_ne hlead] at ho
      obtain ⟨c, hc, hcl⟩ := hw.owner lead h ho
      cases hk : w.lockOwner leadID with
      | none => exact ⟨c, hc, hcl⟩
      | some k =>
        by_cases hh : h = k
        · subst hh
          exact ⟨{ c with expired := true }, by simp [markExpired, hc], hcl⟩
        · exact ⟨c, by simp [markExpired, hh, hc], hcl⟩
  locked lead := by
    simp only [step, expireLock]
    by_cases hlead : lead = leadID
    · subst hlead
      simp
    · simp only [Function.update_of_ne hlead]
      exact hw.locked lead
  live h c hc hl := by
    obtain ⟨c', hc', -, hsame⟩ := markExpired_eq_some hc
    obtain ⟨rfl, hne⟩ := hsame hl
    obtain ⟨hown, hentry⟩ := hw.live h c hc' hl
    have hlead : c.leadID ≠ leadID := by
      intro he
      rw [he] at hown
      exact hne hown
    simp only [step, Function.update_of_ne hlead]
    exact ⟨hown, hentry⟩
  entry := hw.entry
  newest lead h ho h' c hc hcl := by
    obtain ⟨c', hc', he, -⟩ := markExpired_eq_some hc
    simp only [step] at ho
    obtain ⟨-, ho⟩ := update_none_eq_some.1 ho
    exact hw.newest lead h ho h' c' hc' (he.trans hcl)

theorem Inv.step {w : HopperWorld} (hw : Inv w) (a : HopperAction) (hok : StaleReleaseFenced w a) :
    Inv (step w a) := by
  cases a with
  | push leadID score => exact hw.sameKeys rfl rfl
  | claim instanceID lockTTLSec nowMs => exact hw.claim instanceID lockTTLSec nowMs
  | release claimNo reinsert score => exact hw.release claimNo reinsert score hok
  | expire leadID => exact hw.expire leadID

theorem Inv.harmless_iff {w : HopperWorld} (hw : Inv w) (a : HopperAction) :
    StaleReleaseHarmless w a ↔ StaleReleaseFenced w a := by
  cases a with
  | release claimNo reinsert score =>
    refine forall_congr' fun c => imp_congr_right fun hc => imp_congr_right fun _ => ?_
    by_cases hf : Fences w.store c.leadID c.lockVal
    · simp only [Hopper.step, hc, release_fenced hf, hf, true_or, iff_true, true_and]
      intro h _ he
      exact hw.entry c.leadID h he
    · simp only [Hopper.step, hc, release_unfenced hf, hf, false_or, HopperWorld.giveUp,
        Function.update_self]
      constructor
      · rintro ⟨hhop, hentry⟩
        refine ⟨fun hr => by simpa [hr] using hhop, fun h he => ?_⟩
        by_contra hlt
        obtain ⟨v, hv⟩ := hentry h (by omega) he
        simp at hv
      · rintro ⟨hhop, hnewer⟩
        refine ⟨?_, fun h hlt he => ?_⟩
        · cases reinsert with
          | false => simp
          | true => simpa using hhop rfl
        · have := hnewer h he
          omega
  | _ => exact Iff.rfl

/-- From an empty hopper, stale releases do no harm and every state has one
holder per lead, none of them claimable, exactly when every stale release is
fenced. -/
theorem hopper_exclusive_along_run (l : List HopperAction) :
    (EachStep step StaleReleaseHarmless HopperWorld.empty l ∧
        Always step Exclusive HopperWorld.empty l) ↔
      EachStep step StaleReleaseFenced HopperWorld.empty l := by
  have hcongr := eachStep_congr (I := Inv) (fun w a hw hok => hw.step a hok)
    (fun w a hw => hw.harmless_iff a) l inv_empty
  constructor
  · intro h
    exact hcongr.mp h.1
  · intro h
    have hinv := always_of_eachStep (I := Inv) (fun w a hw hok => hw.step a hok) inv_empty h
    exact ⟨hcongr.mpr h, hinv.mono fun _ hw => hw.exclusive⟩

theorem late_release_reinserts :
    ¬ (EachStep step StaleReleaseHarmless HopperWorld.empty
        [.push 5 1, .claim "pod-a" 30 1000, .expire 5, .release 0 true 1] ∧
      Always step Exclusive HopperWorld.empty
        [.push 5 1, .claim "pod-a" 30 1000, .expire 5, .release 0 true 1]) := by
  rintro ⟨⟨-, -, -, h, -⟩, -⟩
  obtain ⟨hhop, -⟩ := h ⟨5, "pod-a:1000", false, true⟩ (by rfl) (.inl rfl)
  exact absurd hhop (by decide +kernel)

end Hopper

end Vici2
