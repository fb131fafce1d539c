import Vici2.GatewaySlots
import Vici2.KeyedCount
import Vici2.Runs

/-! The active-call counter of a gateway against the in-flight HASHes that
record the gateway, along runs of `Acquire` and `Release`. -/

namespace Vici2

namespace Gateway

/-- The store, with the cap of each gateway's last successful acquire. -/
structure GatewayWorld where
  store : GatewayStore
  lastCap : Int → Option Int

def GatewayWorld.empty : GatewayWorld := ⟨GatewayStore.empty, fun _ => none⟩

inductive GatewayAction
  | acquire (gatewayID campaignID leadID : Int) (callUUID : String)
      (maxConcurrent tsMs inFlightTTLSec : Int)
  | release (gatewayID : Int) (callUUID : String)

def step (w : GatewayWorld) : GatewayAction → GatewayWorld
  | .acquire gatewayID campaignID leadID callUUID maxConcurrent tsMs ttl =>
    match acquire w.store gatewayID campaignID leadID callUUID maxConcurrent tsMs ttl with
    | ((⟨true, _⟩, _), s) => ⟨s, Function.update w.lastCap gatewayID (some maxConcurrent)⟩
    | ((⟨false, _⟩, _), s) => { w with store := s }
  | .release gatewayID callUUID => { w with store := (release w.store gatewayID callUUID).2 }

def inFlightOn (s : GatewayStore) (gatewayID : Int) : Nat :=
  countWhere (fun call => call.gatewayID = gatewayID) s.inFlight

structure Bounded (w : GatewayWorld) : Prop where
  nonneg : ∀ g, 0 ≤ w.store.activeCount g
  cap : ∀ g m, w.lastCap g = some m → 0 ≤ m ∧ w.store.activeCount g ≤ m
  keyed : ∀ u call, w.store.inFlight.lookup u = some call → call.callUUID = u

def Counted (w : GatewayWorld) : Prop := ∀ g, w.store.activeCount g = inFlightOn w.store g

/-- The counter is never negative, within the last successful acquire's cap,
and the number of in-flight calls of its gateway. -/
def SlotsExact (w : GatewayWorld) : Prop :=
  ∀ g, 0 ≤ w.store.activeCount g ∧ (∀ m, w.lastCap g = some m → w.store.activeCount g ≤ m) ∧
    w.store.activeCount g = inFlightOn w.store g

/-- An acquire that goes through brings a new call uuid; a release of a call in
flight names the gateway the call was acquired on. -/
def StepPaired (w : GatewayWorld) : GatewayAction → Prop
  | .acquire gatewayID _ _ callUUID maxConcurrent _ _ =>
    w.store.activeCount gatewayID < maxConcurrent → callUUID ∉ w.store.inFlight
  | .release gatewayID callUUID =>
    ∀ call, w.store.inFlight.lookup callUUID = some call → call.gatewayID = gatewayID

def GatewayWorld.occupy (w : GatewayWorld) (call : InFlightCall) (cap : Int) : GatewayWorld where
  store :=
    { active := Function.update w.store.active call.gatewayID
        (some (w.store.activeCount call.gatewayID + 1))
      inFlight := w.store.inFlight.insert call.callUUID call }
  lastCap := Function.update w.lastCap call.gatewayID (some cap)

def GatewayWorld.discharge (w : GatewayWorld) (gatewayID : Int) (callUUID : String) :
    GatewayWorld where
  store :=
    { active := Function.update w.store.active gatewayID
        (some (if w.store.activeCount gatewayID ≤ 0 then 0
          else w.store.activeCount gatewayID - 1))
      inFlight := w.store.inFlight.erase callUUID }
  lastCap := w.lastCap

theorem step_acquire_limit {w : GatewayWorld} {g cap : Int} (h : ¬ w.store.activeCount g < cap)
    (cid lead : Int) (u : String) (ts ttl : Int) :
    step w (.acquire g cid lead u cap ts ttl) = w := by
  unfold step
  dsimp only
  rw [acquire_limit (not_lt.mp h)]

theorem step_acquire_allowed {w : GatewayWorld} {g cap : Int} (h : w.store.activeCount g < cap)
    (cid lead : Int) (u : String) (ts ttl : Int) :
    step w (.acquire g cid lead u cap ts ttl) =
      w.occupy ⟨u, lead, cid, g, ts, if ttl ≤ 0 then defaultInFlightTTLSec else ttl⟩ cap := by
  unfold step
  dsimp only
  rw [acquire_allowed h]
  rfl

theorem step_release_unknown {w : GatewayWorld} {u : String} (h : w.store.inFlight.lookup u = none)
    (g : Int) : step w (.release g u) = w := by
  simp only [step, release, originateRelease, h]

theorem step_release_known {w : GatewayWorld} {u : String} {call : InFlightCall}
    (h : w.store.inFlight.lookup u = some call) (hu : call.callUUID = u) (g : Int) :
    step w (.release g u) = w.discharge g u := by
  simp [step, release, originateRelease, h, hu, GatewayWorld.discharge]

theorem activeCount_occupy (w : GatewayWorld) (call : InFlightCall) (cap g : Int) :
    (w.occupy call cap).store.activeCount g =
      w.store.activeCount g + if call.gatewayID = g then 1 else 0 := by
  unfold GatewayWorld.occupy
  rw [activeCount_update]
  by_cases hg : call.gatewayID = g
  · subst hg
    simp
  · have hg' : g ≠ call.gatewayID := fun he => hg he.symm
    rw [if_neg hg', if_neg hg, add_zero]
    rfl

theorem activeCount_discharge (w : GatewayWorld) (g : Int) (u : String) (g' : Int) :
    (w.discharge g u).store.activeCount g' =
      if g' = g then (if w.store.activeCount g ≤ 0 then 0 else w.store.activeCount g - 1)
      else w.store.activeCount g' := by
  unfold GatewayWorld.discharge
  exact activeCount_update _ _ _ _ _

theorem Bounded.occupy {w : GatewayWorld} (hw : Bounded w) {call : InFlightCall} {cap : Int}
    (h : w.store.activeCount call.gatewayID < cap) : Bounded (w.occupy call cap) where
  nonneg g := by
    have hn := hw.nonneg g
    rw [activeCount_occupy]
    split_ifs <;> omega
  cap g m hm := by
    rw [activeCount_occupy]
    by_cases hg : call.gatewayID = g
    · subst hg
      have hn := hw.nonneg call.gatewayID
      obtain rfl : cap = m := by simpa [GatewayWorld.occupy] using hm
      rw [if_pos rfl]
      omega
    · have hm' : w.lastCap g = some m := by
        simpa [GatewayWorld.occupy, Function.update_of_ne (Ne.symm hg)] using hm
      rw [if_neg hg, add_zero]
      exact hw.cap g m hm'
  keyed u c hc := by
    by_cases hu : u = call.callUUID
    · subst hu
      simp only [GatewayWorld.occupy, Finmap.lookup_insert, Option.some.injEq] at hc
      rw [← hc]
    · simp only [GatewayWorld.occupy, Finmap.lookup_insert_of_ne _ hu] at hc
      exact hw.keyed u c hc

theorem Bounded.discharge {w : GatewayWorld} (hw : Bounded w) (g : Int) (u : String) :
    Bounded (w.discharge g u) where
  nonneg g' := by
    have hn := hw.nonneg g'
    rw [activeCount_discharge]
    split_ifs <;> omega
  cap g' m hm := by
    obtain ⟨hm0, hle⟩ := hw.cap g' m hm
    rw [activeCount_discharge]
    refine ⟨hm0, ?_⟩
    by_cases hg : g' = g
    · subst hg
      rw [if_pos rfl]
      split_ifs <;> omega
    · rw [if_neg hg]
      exact hle
  keyed u' c hc := by
    by_cases hu : u' = u
    · subst hu
      simp [GatewayWorld.discharge] at hc
    · simp only [GatewayWorld.discharge, Finmap.lookup_erase_ne hu] at hc
      exact hw.keyed u' c hc

theorem Bounded.step {w : GatewayWorld} (hw : Bounded w) (a : GatewayAction) :
    Bounded (step w a) := by
  cases a with
  | acquire g cid lead u cap ts ttl =>
    by_cases h : w.store.activeCount g < cap
    · rw [step_acquire_allowed h]
      exact hw.occupy h
    · rw [step_acquire_limit h]
      exact hw
  | release g u =>
    cases h : w.store.inFlight.lookup u with
    | none =>
      rw [step_release_unknown h]
      exact hw
    | some call =>
      rw [step_release_known h (hw.keyed u call h)]
      exact hw.discharge g u

theorem inFlightOn_occupy_new {w : GatewayWorld} {call : InFlightCall}
    (h : call.callUUID ∉ w.store.inFlight) (cap g : Int) :
    inFlightOn (w.occupy call cap).store g =
      inFlightOn w.store g + if call.gatewayID = g then 1 else 0 := by
  have hc := countWhere_insert (fun c : InFlightCall => c.gatewayID = g) call h
  simpa [inFlightOn, GatewayWorld.occupy] using hc

theorem inFlightOn_occupy_again {w : GatewayWorld} {call old : InFlightCall}
    (h : w.store.inFlight.lookup call.callUUID = some old) (cap g : Int) :
    inFlightOn (w.occupy call cap).store g + (if old.gatewayID = g then 1 else 0) =
      inFlightOn w.store g + if call.gatewayID = g then 1 else 0 := by
  have he := countWhere_erase (fun c : InFlightCall => c.gatewayID = g) h
  have hi := countWhere_insert (fun c : InFlightCall => c.gatewayID = g) call
    (Finmap.notMem_erase_self (a := call.callUUID) (s := w.store.inFlight))
  rw [insert_erase_self] at hi
  simp only [decide_eq_true_eq] at he hi
  simp only [inFlightOn, GatewayWorld.occupy]
  omega

theorem inFlightOn_discharge {w : GatewayWorld} {u : String} {call : InFlightCall}
    (h : w.store.inFlight.lookup u = some call) (g g' : Int) :
    inFlightOn (w.discharge g u).store g' + (if call.gatewayID = g' then 1 else 0) =
      inFlightOn w.store g' := by
  have he := countWhere_erase (fun c : InFlightCall => c.gatewayID = g') h
  simpa [inFlightOn, GatewayWorld.discharge] using he

theorem Counted.occupy_iff {w : GatewayWorld} (hw : Counted w) (call : InFlightCall) (cap : Int) :
    Counted (w.occupy call cap) ↔ call.callUUID ∉ w.store.inFlight := by
  constructor
  · intro hc hmem
    obtain ⟨old, hold⟩ := Finmap.mem_iff.mp hmem
    have hg := hc old.gatewayID
    have hb := hw old.gatewayID
    have hn := inFlightOn_occupy_again hold cap old.gatewayID
    rw [activeCount_occupy] at hg
    rw [if_pos rfl] at hn
    split_ifs at hg hn <;> omega
  · intro hnew g
    have hb := hw g
    rw [activeCount_occupy, inFlightOn_occupy_new hnew]
    split_ifs <;> push_cast <;> omega

theorem Counted.discharge_iff {w : GatewayWorld} (hw : Counted w) {u : String}
    {call : InFlightCall} (h : w.store.inFlight.lookup u = some call) (g : Int) :
    Counted (w.discharge g u) ↔ call.gatewayID = g := by
  have hcall := hw call.gatewayID
  constructor
  · intro hc
    by_contra hne
    have hg := hc call.gatewayID
    have hn := inFlightOn_discharge h g call.gatewayID
    rw [activeCount_discharge, if_neg hne] at hg
    rw [if_pos rfl] at hn
    omega
  · rintro rfl g'
    have hb := hw g'
    have hn := inFlightOn_discharge h call.gatewayID g'
    rw [activeCount_discharge]
    by_cases hg : g' = call.gatewayID
    · subst hg
      rw [if_pos rfl] at hn ⊢
      split_ifs <;> omega
    · rw [if_neg hg]
      rw [if_neg (Ne.symm hg)] at hn
      omega

theorem Counted.step_iff {w : GatewayWorld} (hb : Bounded w) (hw : Counted w) (a : GatewayAction) :
    Counted (step w a) ↔ StepPaired w a := by
  cases a with
  | acquire g cid lead u cap ts ttl =>
    by_cases h : w.store.activeCount g < cap
    · rw [step_acquire_allowed h, hw.occupy_iff]
      exact ⟨fun hn _ => hn, fun hn => hn h⟩
    · rw [step_acquire_limit h]
      exact iff_of_true hw fun h' => absurd h' h
  | release g u =>
    cases h : w.store.inFlight.lookup u with
    | none =>
      rw [step_release_unknown h]
      refine iff_of_true hw ?_
      intro call hc
      rw [h] at hc
      simp at hc
    | some call =>
      rw [step_release_known h (hb.keyed u call h), hw.discharge_iff h]
      simp [StepPaired, h]

theorem Bounded.slotsExact_iff {w : GatewayWorld} (hb : Bounded w) : SlotsExact w ↔ Counted w := by
  constructor
  · intro h g
    exact (h g).2.2
  · intro h g
    exact ⟨hb.nonneg g, fun m hm => (hb.cap g m hm).2, h g⟩

theorem bounded_empty : Bounded GatewayWorld.empty := by
  constructor <;> simp [GatewayWorld.empty, GatewayStore.empty, GatewayStore.activeCount]

theorem counted_empty : Counted GatewayWorld.empty := by
  intro g
  rfl

/-- From an empty store, the counters are exact after every step of a run
exactly when every acquire that goes through brings a new call uuid and every
release of a call in flight names its gateway. -/
theorem gateway_slots_exact_along_run (l : List GatewayAction) :
    Always step SlotsExact GatewayWorld.empty l ↔ EachStep step StepPaired GatewayWorld.empty l := by
  refine always_iff_eachStep (I := Bounded) (fun w a hb _ _ => hb.step a) ?_ l bounded_empty
    (bounded_empty.slotsExact_iff.mpr counted_empty)
  intro w a hb hw
  rw [(hb.step a).slotsExact_iff]
  exact (hb.slotsExact_iff.mp hw).step_iff hb a

theorem gateway_counter_bounded_along_run (l : List GatewayAction) :
    Always step Bounded GatewayWorld.empty l :=
  always_of_step (fun _ a hb => hb.step a) l bounded_empty

theorem reacquired_uuid_counts_twice :
    ¬ Always step SlotsExact GatewayWorld.empty
      [.acquire 7 42 5 "call-1" 10 1000 60, .acquire 7 42 5 "call-1" 10 1001 60] := by
  intro h
  have hc := (h.last 7).2.2
  exact absurd hc (by decide)

end Gateway

end Vici2
