import Mathlib.Data.Fintype.Basic
import Mathlib.Logic.Function.Basic
import Vici2.Adapt
import Vici2.Runs

/-! Controller ticks and fast-cuts of any number of pods on one campaign. On a pod
one loop runs both, so a pod is in at most one of them; the pods meet in the
store, command by command. The tick lock and the fast-cut lock are two keys, and
neither is released before it expires. -/

namespace Vici2

namespace Adapt

structure FastCutEvent where
  event : String
  gated : Bool
  deriving DecidableEq, Repr

structure FastCutter where
  debounce : Duration
  lastCut : Instant := 0
  flapTimes : List Instant := []
  flapDebounce : Instant := 0
  deriving DecidableEq, Repr

def newFastCutter (debounceSec : Int) : FastCutter :=
  { debounce := seconds (if debounceSec ≤ 0 then 30 else debounceSec) }

namespace FastCutter

def pruneFlaps (fc : FastCutter) (now : Instant) : FastCutter :=
  { fc with flapTimes := fc.flapTimes.filter fun t => now - 60 * nsPerSecond < t }

def noteFlap (fc : FastCutter) (now : Instant) : FastCutter :=
  let fc := fc.pruneFlaps now
  let flapTimes := fc.flapTimes ++ [now]
  { fc with
    flapTimes := flapTimes
    flapDebounce := if 3 < flapTimes.length then now + 5 * nsPerMinute else fc.flapDebounce }

/-- The debounce in force; the clock is read a second time, at `later`. -/
def effectiveDebounce (fc : FastCutter) (now later : Instant) : Duration :=
  if now < fc.flapDebounce then fc.flapDebounce.sub later else fc.debounce

def debounced (fc : FastCutter) (now later : Instant) : Bool :=
  ¬ fc.lastCut.isZero ∧ now.sub fc.lastCut < fc.effectiveDebounce now later

/-- `HandleMessage` up to its lock: whether the message asks for a cut. A payload
that is no event is `none`. -/
def receive (fc : FastCutter) (payload : Option FastCutEvent) (now later : Instant) :
    Bool × FastCutter :=
  match payload with
  | none => (false, fc)
  | some ev =>
    if ev.event ≠ "drop_gated_changed" ∨ ¬ ev.gated then (false, fc)
    else
      let fc := fc.noteFlap now
      (¬ fc.debounced now later, fc)

end FastCutter

structure AdaptStore where
  dialLevel : Option Decimal := none
  paceState : PaceHash := {}
  tickLock : Bool := false
  fastcutLock : Bool := false
  deriving DecidableEq, Repr

/-- `"1.00"`. -/
def cutLevel : Decimal := ⟨100, 2⟩

inductive Phase
  | idle
  | tickLocked (cfg : Config)
  | tickRead (cfg : Config) (level : Option Decimal)
  | tickDecided (out : AdaptOutput) (ps : PaceState)
  | tickWritten (ps : PaceState)
  | cutLocked (now : Instant)
  | cutRead (now : Instant)
  | cutWritten (now : Instant)

structure Pod where
  cutter : FastCutter
  phase : Phase

/-- The store and the pods, with the number of cuts written so far and, for each
pod, that number when its tick last read the dial level. -/
structure AdaptWorld (ι : Type) where
  store : AdaptStore
  pods : ι → Pod
  cuts : Nat
  cutsAtRead : ι → Nat

/-- A flag `ok` says that the command succeeded. -/
inductive AdaptEvent (ι : Type)
  | tickLock (i : ι) (cfg : Config) (ok : Bool)
  | tickReadLevel (i : ι) (ok : Bool)
  | tickDecide (i : ι) (dropPct : Option ℚ) (now : Instant)
  | tickWriteLevel (i : ι) (ok : Bool)
  | tickSave (i : ι) (ok : Bool)
  | message (i : ι) (payload : Option FastCutEvent) (now later : Instant) (ok : Bool)
  | cutReadLevel (i : ι) (ok : Bool)
  | cutWriteLevel (i : ι) (ok : Bool)
  | cutRecord (i : ι) (ok : Bool)
  | configChanged (i : ι) (debounceSec : Int)
  | override (level : Decimal)
  | expireTickLock
  | expireFastcutLock

section Step

variable {ι : Type} [DecidableEq ι]

def AdaptWorld.start (store : AdaptStore) (cutter : ι → FastCutter) : AdaptWorld ι :=
  ⟨store, fun i => ⟨cutter i, .idle⟩, 0, fun _ => 0⟩

def AdaptWorld.goto (w : AdaptWorld ι) (i : ι) (phase : Phase) : AdaptWorld ι :=
  { w with pods := Function.update w.pods i { w.pods i with phase := phase } }

def AdaptWorld.withStore (w : AdaptWorld ι) (store : AdaptStore) : AdaptWorld ι :=
  { w with store := store }

def recordCut (h : PaceHash) (now : Instant) : PaceHash :=
  { h with
    integralTerm := some ⟨0, 0⟩
    lastAction := some .fastCut
    lastLevel := some cutLevel
    lastTickTs := fmtUnixMs now }

def step (w : AdaptWorld ι) : AdaptEvent ι → AdaptWorld ι
  | .tickLock i cfg ok =>
    match (w.pods i).phase with
    | .idle =>
      if ok ∧ ¬ w.store.tickLock then
        (w.withStore { w.store with tickLock := true }).goto i (.tickLocked cfg)
      else w
    | _ => w
  | .tickReadLevel i ok =>
    match (w.pods i).phase with
    | .tickLocked cfg =>
      if ok then
        { w.goto i (.tickRead cfg w.store.dialLevel) with
          cutsAtRead := Function.update w.cutsAtRead i w.cuts }
      else w.goto i .idle
    | _ => w
  | .tickDecide i dropPct now =>
    match (w.pods i).phase with
    | .tickRead cfg level =>
      let r : TickReads := ⟨level, dropPct, w.store.paceState, now⟩
      w.goto i (.tickDecided (r.decide cfg) (r.nextPaceState cfg))
    | _ => w
  | .tickWriteLevel i ok =>
    match (w.pods i).phase with
    | .tickDecided out ps =>
      if out.needsWrite ∧ ok then
        (w.withStore { w.store with dialLevel := some (formatFloat out.newLevel 2) }).goto i
          (.tickWritten ps)
      else w.goto i (.tickWritten ps)
    | _ => w
  | .tickSave i ok =>
    match (w.pods i).phase with
    | .tickWritten ps =>
      if ok then (w.withStore { w.store with paceState := savePaceState ps }).goto i .idle
      else w.goto i .idle
    | _ => w
  | .message i payload now later ok =>
    match (w.pods i).phase with
    | .idle =>
      let r := (w.pods i).cutter.receive payload now later
      if r.1 ∧ ok ∧ ¬ w.store.fastcutLock then
        { w.withStore { w.store with fastcutLock := true } with
          pods := Function.update w.pods i ⟨r.2, .cutLocked now⟩ }
      else { w with pods := Function.update w.pods i ⟨r.2, .idle⟩ }
    | _ => w
  | .cutReadLevel i ok =>
    match (w.pods i).phase with
    | .cutLocked now =>
      if ok ∧ w.store.dialLevel = some cutLevel then w.goto i .idle
      else w.goto i (.cutRead now)
    | _ => w
  | .cutWriteLevel i ok =>
    match (w.pods i).phase with
    | .cutRead now =>
      if ok then
        { (w.withStore { w.store with dialLevel := some cutLevel }).goto i (.cutWritten now) with
          cuts := w.cuts + 1 }
      else w.goto i .idle
    | _ => w
  | .cutRecord i ok =>
    match (w.pods i).phase with
    | .cutWritten now =>
      let store := if ok then
          { w.store with paceState := recordCut w.store.paceState now } else w.store
      { w.withStore store with
        pods := Function.update w.pods i ⟨{ (w.pods i).cutter with lastCut := now }, .idle⟩ }
    | _ => w
  | .configChanged i debounceSec =>
    match (w.pods i).phase with
    | .idle => { w with pods := Function.update w.pods i ⟨newFastCutter debounceSec, .idle⟩ }
    | _ => w
  | .override level => w.withStore { w.store with dialLevel := some level }
  | .expireTickLock => w.withStore { w.store with tickLock := false }
  | .expireFastcutLock => w.withStore { w.store with fastcutLock := false }

/-- A tick stands between its read of the dial level and a write of it. -/
def Phase.pending : Phase → Bool
  | .tickRead _ _ => true
  | .tickDecided out _ => out.needsWrite
  | _ => false

/-- A write of the dial level by a tick is computed from a dial level read after
every cut written so far. -/
def CutKept (w : AdaptWorld ι) : AdaptEvent ι → Prop
  | .tickWriteLevel i ok => ∀ out ps, (w.pods i).phase = .tickDecided out ps →
    out.needsWrite = true → ok = true → w.cutsAtRead i = w.cuts
  | _ => True

/-- A cut is written only when no tick is pending. -/
def CutAlone (w : AdaptWorld ι) : AdaptEvent ι → Prop
  | .cutWriteLevel i ok => ∀ now, (w.pods i).phase = .cutRead now → ok = true →
    ∀ j, (w.pods j).phase.pending = false
  | _ => True

def Fresh (w : AdaptWorld ι) : Prop :=
  ∀ j, (w.pods j).phase.pending = true → w.cutsAtRead j = w.cuts

theorem Fresh.update {w : AdaptWorld ι} (hw : Fresh w) (i : ι) (pod : Pod)
    (h : pod.phase.pending = true → w.cutsAtRead i = w.cuts) :
    Fresh { w with pods := Function.update w.pods i pod } := by
  intro j hj
  by_cases hji : j = i
  · subst j
    simp only [Function.update_self] at hj
    exact h hj
  · simp only [Function.update_of_ne hji] at hj
    exact hw j hj

omit [DecidableEq ι] in
theorem Fresh.withStore {w : AdaptWorld ι} (hw : Fresh w) (store : AdaptStore) :
    Fresh (w.withStore store) := hw

theorem Fresh.goto {w : AdaptWorld ι} (hw : Fresh w) (i : ι) {phase : Phase}
    (h : phase.pending = true → w.cutsAtRead i = w.cuts) : Fresh (w.goto i phase) :=
  hw.update i { w.pods i with phase := phase } h

theorem Fresh.rest {w : AdaptWorld ι} (hw : Fresh w) (i : ι) {phase : Phase}
    (h : phase.pending = false) : Fresh (w.goto i phase) :=
  hw.goto i fun hp => by simp [h] at hp

theorem Fresh.tickReadLevel {w : AdaptWorld ι} (hw : Fresh w) (i : ι) (ok : Bool) :
    Fresh (step w (.tickReadLevel i ok)) := by
  simp only [step]
  split
  · split
    · intro j hj
      by_cases hji : j = i
      · subst j
        exact Function.update_self i w.cuts w.cutsAtRead
      · have hj' : (w.pods j).phase.pending = true := by
          simpa [AdaptWorld.goto, hji] using hj
        have hread := Function.update_of_ne hji w.cuts w.cutsAtRead
        exact hread.trans (hw j hj')
    · exact hw.rest i rfl
  · exact hw

theorem Fresh.cutWriteLevel {w : AdaptWorld ι} (hw : Fresh w) {i : ι} {ok : Bool}
    (halone : CutAlone w (.cutWriteLevel i ok)) : Fresh (step w (.cutWriteLevel i ok)) := by
  simp only [step]
  split
  · rename_i now hphase
    split
    · rename_i hok
      have hquiet := halone now hphase hok
      intro j hj
      by_cases hji : j = i
      · subst j
        simp [AdaptWorld.goto, Phase.pending] at hj
      · have hj' : (w.pods j).phase.pending = true := by
          simpa [AdaptWorld.goto, AdaptWorld.withStore, hji] using hj
        have hno := hquiet j
        rw [hj'] at hno
        simp at hno
    · exact hw.rest i rfl
  · exact hw

theorem Fresh.step {w : AdaptWorld ι} (hw : Fresh w) {e : AdaptEvent ι} (he : CutAlone w e) :
    Fresh (Adapt.step w e) := by
  cases e with
  | tickLock i cfg ok =>
    simp only [Adapt.step]
    split
    · split
      · exact (hw.withStore _).rest i rfl
      · exact hw
    · exact hw
  | tickReadLevel i ok => exact hw.tickReadLevel i ok
  | tickDecide i dropPct now =>
    simp only [Adapt.step]
    split
    · rename_i cfg level hphase
      have hread : w.cutsAtRead i = w.cuts := hw i (by rw [hphase]; rfl)
      exact hw.goto i fun _ => hread
    · exact hw
  | tickWriteLevel i ok =>
    simp only [Adapt.step]
    split
    · split
      · exact (hw.withStore _).rest i rfl
      · exact hw.rest i rfl
    · exact hw
  | tickSave i ok =>
    simp only [Adapt.step]
    split
    · split
      · exact (hw.withStore _).rest i rfl
      · exact hw.rest i rfl
    · exact hw
  | message i payload now later ok =>
    simp only [Adapt.step]
    split
    · split
      · exact (hw.withStore _).update i _ fun hp => by simp [Phase.pending] at hp
      · exact hw.update i _ fun hp => by simp [Phase.pending] at hp
    · exact hw
  | cutReadLevel i ok =>
    simp only [Adapt.step]
    split
    · split
      · exact hw.rest i rfl
      · exact hw.rest i rfl
    · exact hw
  | cutWriteLevel i ok => exact hw.cutWriteLevel he
  | cutRecord i ok =>
    simp only [Adapt.step]
    split
    · exact (hw.withStore _).update i _ fun hp => by simp [Phase.pending] at hp
    · exact hw
  | configChanged i debounceSec =>
    simp only [Adapt.step]
    split
    · exact hw.update i _ fun hp => by simp [Phase.pending] at hp
    · exact hw
  | override level => exact hw.withStore _
  | expireTickLock => exact hw.withStore _
  | expireFastcutLock => exact hw.withStore _

omit [DecidableEq ι] in
theorem Fresh.cutKept {w : AdaptWorld ι} (hw : Fresh w) (e : AdaptEvent ι) : CutKept w e := by
  cases e with
  | tickWriteLevel i ok =>
    intro out ps hphase hneeds _
    apply hw i
    rw [hphase]
    exact hneeds
  | _ => trivial

omit [DecidableEq ι] in
theorem fresh_start (store : AdaptStore) (cutter : ι → FastCutter) :
    Fresh (AdaptWorld.start store cutter) := by
  intro j hj
  simp [AdaptWorld.start, Phase.pending] at hj

/-- No cut is lost in a run in which cuts are written only while no tick is
pending. -/
theorem fast_cut_kept_along_run (store : AdaptStore) (cutter : ι → FastCutter)
    (l : List (AdaptEvent ι)) (hl : EachStep step CutAlone (.start store cutter) l) :
    EachStep step CutKept (.start store cutter) l := by
  have hfresh : Always step Fresh (.start store cutter) l :=
    always_of_eachStep (fun w e hw he => hw.step he) (fresh_start store cutter) hl
  exact hfresh.eachStep fun w e hw => hw.cutKept e

/-- One pod alone loses no cut: its loop is never in a tick when it cuts. -/
theorem fast_cut_kept_on_one_pod [Subsingleton ι] (store : AdaptStore) (cutter : ι → FastCutter)
    (l : List (AdaptEvent ι)) : EachStep step CutKept (.start store cutter) l := by
  have halone : ∀ (w : AdaptWorld ι) e, CutAlone w e := by
    intro w e
    cases e with
    | cutWriteLevel i ok =>
      intro now hphase _ j
      obtain rfl : i = j := Subsingleton.elim i j
      rw [hphase]
      rfl
    | _ => trivial
  have hfresh : Always step Fresh (.start store cutter) l :=
    always_of_step (fun w e hw => hw.step (halone w e)) l (fresh_start store cutter)
  exact hfresh.eachStep fun w e hw => hw.cutKept e

end Step

def hardCampaign : Config where
  mode := .adaptHard
  adaptiveDropPct := 3
  adaptiveMaxLevel := 5
  autoDialLevel := 2
  intensity := 0
  holdBandPP := 3 / 10
  adaptTickSeconds := 15
  warmupMinAnswered := 0
  warmupMinSeconds := 0

def gatedMessage : Option FastCutEvent := some ⟨"drop_gated_changed", true⟩

def tickOf (i : Bool) : List (AdaptEvent Bool) :=
  [.tickLock i hardCampaign true, .tickReadLevel i true, .tickDecide i (some 1) (unixMilli 1000),
    .tickWriteLevel i true, .tickSave i true]

def cutOf (i : Bool) : List (AdaptEvent Bool) :=
  [.message i gatedMessage (unixMilli 900) (unixMilli 900) true, .cutReadLevel i true,
    .cutWriteLevel i true, .cutRecord i true]

theorem fast_cut_kept_between_ticks :
    EachStep step CutAlone
        (.start { dialLevel := some ⟨300, 2⟩ } fun _ => newFastCutter 30)
        (tickOf false ++ cutOf true ++ [.expireTickLock] ++ tickOf false) ∧
      EachStep step CutKept
        (.start { dialLevel := some ⟨300, 2⟩ } fun _ => newFastCutter 30)
        (tickOf false ++ cutOf true ++ [.expireTickLock] ++ tickOf false) := by
  have halone : EachStep step CutAlone
      (.start { dialLevel := some ⟨300, 2⟩ } fun _ => newFastCutter 30)
      (tickOf false ++ cutOf true ++ [.expireTickLock] ++ tickOf false) := by
    refine ⟨trivial, trivial, trivial, trivial, trivial, trivial, trivial, ?_, trivial, trivial,
      trivial, trivial, trivial, trivial, trivial, trivial⟩
    intro now _ _ j
    cases j <;> decide +kernel
  exact ⟨halone, fast_cut_kept_along_run _ _ _ halone⟩

/-- One pod's tick reads level 3.00; the other pod cuts to 1.00; the tick then
writes 3.05. -/
theorem tick_overwrites_cut :
    ¬ EachStep step CutKept
      (.start { dialLevel := some ⟨300, 2⟩ } fun _ => newFastCutter 30)
      ((tickOf false).take 2 ++ cutOf true ++ (tickOf false).drop 2) := by
  intro h
  have hwrite := h.2.2.2.2.2.2.2.1
  have hcuts := hwrite _ _ rfl (by decide +kernel) rfl
  revert hcuts
  decide +kernel

end Adapt

end Vici2
