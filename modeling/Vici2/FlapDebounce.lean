import Mathlib.Data.PNat.Basic
import Vici2.FastCut

/-! The extended debounce of a fast cutter over whole runs of messages, with a record of the
times at which it saw the gate flap and at which it cut. -/

namespace Vici2

namespace Adapt

def flapPeriod : Duration := 5 * nsPerMinute

def isGated (payload : Option FastCutEvent) : Bool :=
  payload.any fun ev => ev.event = "drop_gated_changed" ∧ ev.gated

/-- A message, the time since the one before it, the time until the clock is read again, and
how the commands that follow the debounce fare. -/
structure GateMessage where
  payload : Option FastCutEvent
  wait : ℕ+
  lag : Nat
  lockGot : Bool
  atFloor : Bool
  written : Bool

structure FlapRun where
  cutter : FastCutter
  clock : Instant := 0
  detections : List Instant := []
  cuts : List Instant := []

namespace FlapRun

variable (r : FlapRun) (m : GateMessage)

def now : Instant := r.clock + (m.wait : Nat)

def later : Instant := r.now m + m.lag

/-- The cutter once it has counted the message. -/
def noted : FastCutter := r.cutter.noteFlap (r.now m)

/-- `HandleMessage`. -/
def handle : FlapRun :=
  let (asks, fc) := r.cutter.receive m.payload (r.now m) (r.later m)
  let cut := asks ∧ m.lockGot ∧ ¬ m.atFloor ∧ m.written
  { cutter := if cut then { fc with lastCut := r.now m } else fc
    clock := r.now m
    detections :=
      if isGated m.payload ∧ 3 < fc.flapTimes.length then r.now m :: r.detections
      else r.detections
    cuts := if cut then r.now m :: r.cuts else r.cuts }

/-- No cut that is further, in the sense of `after`, than a detection comes within the flap
period of it. -/
def Quiet (after : Instant → Instant → Prop) (r : FlapRun) : Prop :=
  ∀ f ∈ r.detections, ∀ c ∈ r.cuts, after f c → f + flapPeriod ≤ c

/-- A gated message that arrives before the deadline is debounced, or another pod holds the
lock, or the level is at its floor already, or the write fails. -/
def Spared (r : FlapRun) (m : GateMessage) (deadline : Instant) : Prop :=
  isGated m.payload → r.now m < deadline →
    (r.noted m).debounced (r.now m) (r.later m) ∨ ¬ m.lockGot ∨ m.atFloor ∨ ¬ m.written

structure Inv (r : FlapRun) : Prop where
  clock : 0 ≤ r.clock
  detected : ∀ f ∈ r.detections, f ≤ r.clock ∧ f + flapPeriod ≤ r.cutter.flapDebounce
  deadline : r.cutter.flapDebounce = 0 ∨ ∃ f ∈ r.detections, r.cutter.flapDebounce = f + flapPeriod
  cuts : ∀ c ∈ r.cuts, c ≤ r.clock

def Cuts : Prop :=
  isGated m.payload ∧ ¬ (r.noted m).debounced (r.now m) (r.later m) ∧ m.lockGot ∧
    ¬ m.atFloor ∧ m.written

instance : Decidable (r.Cuts m) := inferInstanceAs (Decidable (_ ∧ _))

def Detects : Prop := isGated m.payload ∧ 3 < (r.noted m).flapTimes.length

instance : Decidable (r.Detects m) := inferInstanceAs (Decidable (_ ∧ _))

theorem now_gt : r.clock < r.now m :=
  Int.lt_add_of_pos_right _ (Int.natCast_pos.2 m.wait.pos)

theorem receive_of_gated (h : isGated m.payload) :
    r.cutter.receive m.payload (r.now m) (r.later m) =
      (decide (¬ (r.noted m).debounced (r.now m) (r.later m)), r.noted m) := by
  obtain ⟨ev, hev, hgated⟩ := (Option.any_eq_true _ _).1 h
  have hgated' := of_decide_eq_true hgated
  rw [hev]
  unfold FastCutter.receive
  dsimp only
  rw [if_neg (by simp [hgated'])]
  rfl

theorem receive_of_not_gated (h : ¬ isGated m.payload) :
    r.cutter.receive m.payload (r.now m) (r.later m) = (false, r.cutter) := by
  unfold FastCutter.receive
  cases hp : m.payload with
  | none => rfl
  | some ev =>
    have hev : ev.event ≠ "drop_gated_changed" ∨ ¬ ev.gated := by
      by_contra hboth
      rw [not_or, not_not, not_not] at hboth
      exact h (by simp [isGated, hp, hboth])
    exact if_pos hev

theorem handle_cuts : (r.handle m).cuts = if r.Cuts m then r.now m :: r.cuts else r.cuts := by
  unfold handle Cuts
  by_cases h : isGated m.payload
  · simp [receive_of_gated r m h, h]
  · simp [receive_of_not_gated r m h, h]

theorem handle_detections :
    (r.handle m).detections = if r.Detects m then r.now m :: r.detections else r.detections := by
  unfold handle Detects
  by_cases h : isGated m.payload
  · simp [receive_of_gated r m h, h]
  · simp [receive_of_not_gated r m h, h]

theorem noted_flapDebounce : (r.noted m).flapDebounce =
    if 3 < (r.noted m).flapTimes.length then r.now m + flapPeriod else r.cutter.flapDebounce := rfl

theorem handle_flapDebounce : (r.handle m).cutter.flapDebounce =
    if r.Detects m then r.now m + flapPeriod else r.cutter.flapDebounce := by
  unfold handle Detects
  by_cases h : isGated m.payload
  · simp only [receive_of_gated r m h, h, true_and]
    rw [← noted_flapDebounce]
    split
    · rfl
    · rfl
  · simp [receive_of_not_gated r m h, h]

theorem Inv.handle {r : FlapRun} (hr : r.Inv) (m : GateMessage) : (r.handle m).Inv := by
  have hclock := now_gt r m
  have hnow : (r.handle m).clock = r.now m := rfl
  refine ⟨hr.clock.trans hclock.le, ?_, ?_, ?_⟩
  · rw [handle_detections, handle_flapDebounce, hnow]
    by_cases hd : r.Detects m
    · rw [if_pos hd, if_pos hd]
      intro f hf
      rcases List.mem_cons.1 hf with rfl | hf
      · exact ⟨le_rfl, le_rfl⟩
      · have hle := (hr.detected f hf).1.trans hclock.le
        exact ⟨hle, Int.add_le_add_right hle flapPeriod⟩
    · rw [if_neg hd, if_neg hd]
      intro f hf
      obtain ⟨hle, hdeadline⟩ := hr.detected f hf
      exact ⟨hle.trans hclock.le, hdeadline⟩
  · rw [handle_detections, handle_flapDebounce]
    by_cases hd : r.Detects m
    · rw [if_pos hd, if_pos hd]
      exact Or.inr ⟨r.now m, List.mem_cons_self, rfl⟩
    · rw [if_neg hd, if_neg hd]
      exact hr.deadline
  · rw [handle_cuts, hnow]
    intro c hc
    split at hc
    · rcases List.mem_cons.1 hc with rfl | hc
      · exact le_rfl
      · exact (hr.cuts c hc).trans hclock.le
    · exact (hr.cuts c hc).trans hclock.le

/-- A time after the clock lies in the flap period of some detection exactly before the
deadline that the cutter keeps. -/
theorem Inv.covers {r : FlapRun} (hr : r.Inv) {t : Instant} (ht : 0 ≤ t) :
    (∀ f ∈ r.detections, f + flapPeriod ≤ t) ↔ ¬ t < r.cutter.flapDebounce := by
  constructor
  · intro h
    rcases hr.deadline with hzero | ⟨f, hf, hlast⟩
    · rw [hzero]
      exact not_lt.2 ht
    · rw [hlast]
      exact not_lt.2 (h f hf)
  · intro h f hf
    exact (hr.detected f hf).2.trans (not_lt.1 h)

theorem spared_iff (deadline : Instant) :
    r.Spared m deadline ↔ (r.Cuts m → ¬ r.now m < deadline) := by
  unfold Spared Cuts
  constructor
  · rintro h ⟨hgated, hdebounced, hlock, hfloor, hwritten⟩ hlt
    rcases h hgated hlt with hd | hl | hf | hw
    · exact hdebounced hd
    · exact hl hlock
    · exact hfloor hf
    · exact hw hwritten
  · intro h hgated hlt
    by_contra hnone
    simp only [not_or, not_not] at hnone
    exact h ⟨hgated, hnone.1, hnone.2.1, hnone.2.2.1, hnone.2.2.2⟩ hlt

/-- What a message does to quiet: only a cut at its own time can break it. -/
theorem quiet_handle_iff {after : Instant → Instant → Prop} (hafter : ∀ f c, after f c → f ≤ c)
    {r : FlapRun} (hr : r.Inv) (hq : r.Quiet after) (m : GateMessage) :
    (r.handle m).Quiet after ↔
      (r.Cuts m → ∀ f ∈ (r.handle m).detections, after f (r.now m) →
        f + flapPeriod ≤ r.now m) := by
  have hclock := now_gt r m
  -- an earlier cut does not come after a detection made now
  have hold : ∀ f ∈ (r.handle m).detections, ∀ c ∈ r.cuts, after f c → f + flapPeriod ≤ c := by
    rw [handle_detections]
    intro f hf c hc hfc
    split at hf
    · rcases List.mem_cons.1 hf with rfl | hf
      · exact absurd (hafter _ _ hfc) (not_le.2 ((hr.cuts c hc).trans_lt hclock))
      · exact hq f hf c hc hfc
    · exact hq f hf c hc hfc
  constructor
  · intro h hcut f hf
    apply h f hf
    rw [handle_cuts, if_pos hcut]
    exact List.mem_cons_self
  · intro h f hf c hc
    rw [handle_cuts] at hc
    split at hc
    · rename_i hcut
      rcases List.mem_cons.1 hc with rfl | hc
      · exact h hcut f hf
      · exact hold f hf c hc
    · exact hold f hf c hc

/-- From the detecting message on. -/
theorem quiet_le_handle_iff {r : FlapRun} (hr : r.Inv) (hq : r.Quiet (· ≤ ·)) (m : GateMessage) :
    (r.handle m).Quiet (· ≤ ·) ↔ r.Spared m (r.noted m).flapDebounce := by
  rw [quiet_handle_iff (fun _ _ h => h) hr hq, spared_iff]
  have hinv := hr.handle m
  apply forall_congr'
  intro hcut
  have hdeadline : (r.noted m).flapDebounce = (r.handle m).cutter.flapDebounce := by
    rw [handle_flapDebounce, noted_flapDebounce]
    simp only [Detects, hcut.1, true_and]
  have hcovers : (∀ f ∈ (r.handle m).detections, f + flapPeriod ≤ r.now m) ↔
      ¬ r.now m < (r.handle m).cutter.flapDebounce := hinv.covers hinv.clock
  rw [hdeadline, ← hcovers]
  apply forall₂_congr
  intro f hf
  exact ⟨fun h => h (hinv.detected f hf).1, fun h _ => h⟩

/-- After the detecting message. -/
theorem quiet_lt_handle_iff {r : FlapRun} (hr : r.Inv) (hq : r.Quiet (· < ·)) (m : GateMessage) :
    (r.handle m).Quiet (· < ·) ↔ r.Spared m r.cutter.flapDebounce := by
  have hclock := now_gt r m
  rw [quiet_handle_iff (fun _ _ h => h.le) hr hq, spared_iff]
  apply forall_congr'
  intro _
  rw [← hr.covers (hr.clock.trans hclock.le), handle_detections]
  constructor
  · intro h f hf
    refine h f ?_ ((hr.detected f hf).1.trans_lt hclock)
    split
    · exact List.mem_cons_of_mem _ hf
    · exact hf
  · intro h f hf hlt
    split at hf
    · rcases List.mem_cons.1 hf with rfl | hf
      · exact absurd hlt (lt_irrefl _)
      · exact h f hf
    · exact h f hf

def start (debounceSec : Int) : FlapRun := { cutter := newFastCutter debounceSec }

theorem inv_start (debounceSec : Int) : (start debounceSec).Inv where
  clock := le_rfl
  detected := by simp [start]
  deadline := Or.inl rfl
  cuts := by simp [start]

theorem quiet_start (after : Instant → Instant → Prop) (debounceSec : Int) :
    (start debounceSec).Quiet after := by
  intro f hf
  exact absurd hf List.not_mem_nil

/-- A run makes no cut in the flap period of a detection exactly when each of its messages that
falls in one is spared, whether the cut of the detecting message itself counts or not. -/
theorem flap_quiet_iff (debounceSec : Int) (l : List GateMessage) :
    (Always handle (Quiet (· ≤ ·)) (start debounceSec) l ↔
      EachStep handle (fun r m => r.Spared m (r.noted m).flapDebounce) (start debounceSec) l) ∧
    (Always handle (Quiet (· < ·)) (start debounceSec) l ↔
      EachStep handle (fun r m => r.Spared m r.cutter.flapDebounce) (start debounceSec) l) := by
  constructor
  · exact always_iff_eachStep (fun r m hr _ _ => hr.handle m)
      (fun r m hr hq => quiet_le_handle_iff hr hq m) l (inv_start _) (quiet_start _ _)
  · exact always_iff_eachStep (fun r m hr _ _ => hr.handle m)
      (fun r m hr hq => quiet_lt_handle_iff hr hq m) l (inv_start _) (quiet_start _ _)

def gateMessage (wait : ℕ+) : GateMessage := ⟨gatedMessage, wait, 0, true, false, true⟩

/-- The gate flaps three seconds after a cut; a message 150 seconds later cuts again. -/
theorem cut_in_flap_period : ¬ ∀ (debounceSec : Int) (l : List GateMessage),
    Always handle (Quiet (· < ·)) (start debounceSec) l := by
  intro h
  have hlast := (h 30 [gateMessage 1000000000000, gateMessage 1000000000, gateMessage 1000000000,
    gateMessage 1000000000, gateMessage 150000000000]).last
  have hlate := hlast 1003000000000 (by decide +kernel) 1153000000000 (by decide +kernel)
    (by decide)
  exact absurd hlate (by decide)

end FlapRun

end Adapt

end Vici2
