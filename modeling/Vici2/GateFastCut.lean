import Vici2.DropGate
import Vici2.FastCut
import Vici2.IsoTime
import Vici2.JsonText

/-! The drop gate and the campaign's fast-cutter on the broadcast channel. The
gate's messages are JSON objects; the cutter reads the members `event` and
`gated` of whatever it receives. No message of the gate has a member `gated`, so
none of them is a cut. -/

namespace Vici2

namespace GateFastCut

open DropGate Adapt

/-- The RFC 3339 text, in UTC, of a second since year 1. -/
def rfc3339Text (ts : Int) : String :=
  String.ofList (IsoTime.secondsText (ts - unixEpoch / nsPerSecond) ++ ['Z'])

/-- The members that `json.Marshal` writes: keys in order, `ts` only where the
transition sets it. -/
def marshal (m : BroadcastMessage) : List (String × Json ℚ) :=
  [("drop_pct", .num m.dropPct), ("event", .str m.event)] ++
    match m.ts with
    | some ts => [("ts", .str (rfc3339Text ts))]
    | none => []

/-- Keys match without regard to case. -/
def isField (key name : String) : Bool := key.toList.map Char.toLower = name.toList

/-- What `json.Unmarshal` stores for one member: a `null` leaves the field, and a
value of another type is an error. -/
def unmarshalMember (ev : FastCutEvent) (m : String × Json ℚ) : Option FastCutEvent :=
  if isField m.1 "event" then
    match m.2 with
    | .str s => some { ev with event := s }
    | .null => some ev
    | _ => none
  else if isField m.1 "gated" then
    match m.2 with
    | .bool b => some { ev with gated := b }
    | .null => some ev
    | _ => none
  else some ev

def unmarshal (members : List (String × Json ℚ)) : Option FastCutEvent :=
  members.foldlM unmarshalMember ⟨"", false⟩

structure CampaignWorld where
  gate : GateWorld
  adapt : AdaptWorld Unit

def handleMessage (w : AdaptWorld Unit) (payload : Option FastCutEvent) (now later : Instant) :
    AdaptWorld Unit :=
  [AdaptEvent.message () payload now later true, .cutReadLevel () true, .cutWriteLevel () true,
    .cutRecord () true].foldl Adapt.step w

def runTick (w : AdaptWorld Unit) (cfg : Config) (dropPct : Option ℚ) (now : Instant) :
    AdaptWorld Unit :=
  [AdaptEvent.tickLock () cfg true, .tickReadLevel () true, .tickDecide () dropPct now,
    .tickWriteLevel () true, .tickSave () true].foldl Adapt.step w

/-- The messages published between two states of the gate. -/
def newMessages (before after : GateWorld) : List BroadcastMessage :=
  after.keys.published.drop before.keys.published.length

/-- A step of the gate is taken with the delivery of what it publishes; `now` and
`later` are the cutter's two readings of the clock. -/
inductive CampaignAction
  | gate (a : GateAction) (now later : Instant)
  | controllerTick (cfg : Config) (dropPct : Option ℚ) (now : Instant)
  | override (level : Decimal)
  | configChanged (debounceSec : Int)
  | expireTickLock
  | expireFastcutLock

def deliver (w : AdaptWorld Unit) (ms : List BroadcastMessage) (now later : Instant) :
    AdaptWorld Unit :=
  ms.foldl (fun w m => handleMessage w (unmarshal (marshal m)) now later) w

def campaignStep (w : CampaignWorld) : CampaignAction → CampaignWorld
  | .gate a now later =>
    let gate := DropGate.step w.gate a
    ⟨gate, deliver w.adapt (newMessages w.gate gate) now later⟩
  | .controllerTick cfg dropPct now => { w with adapt := runTick w.adapt cfg dropPct now }
  | .override level => { w with adapt := Adapt.step w.adapt (.override level) }
  | .configChanged debounceSec => { w with adapt := Adapt.step w.adapt (.configChanged () debounceSec) }
  | .expireTickLock => { w with adapt := Adapt.step w.adapt .expireTickLock }
  | .expireFastcutLock => { w with adapt := Adapt.step w.adapt .expireFastcutLock }

def CampaignWorld.cutter (w : CampaignWorld) : FastCutter := (w.adapt.pods ()).cutter

/-- A message that arrives now finds the cutter outside its debounce period and
the fast-cut lock free. -/
def CampaignWorld.ready (w : CampaignWorld) (now later : Instant) : Prop :=
  (w.cutter.noteFlap now).debounced now later = false ∧ w.adapt.store.fastcutLock = false

instance (w : CampaignWorld) (now later : Instant) : Decidable (w.ready now later) :=
  inferInstanceAs (Decidable (_ ∧ _))

/-- The tick moves the gate to `HARD_BREACH`. -/
def Engages (w : GateWorld) (dropPct : ℚ) (denominator : Int) : Prop :=
  w.gate.state ≠ .hardBreach ∧ warmupDenominatorFloor ≤ denominator ∧
    w.gate.cfg.effectiveMax ≤ dropPct

instance (w : GateWorld) (dropPct : ℚ) (denominator : Int) :
    Decidable (Engages w dropPct denominator) :=
  inferInstanceAs (Decidable (_ ∧ _))

/-- After a tick that moves the gate to `HARD_BREACH`, with its message delivered
to a ready cutter, the dial level is 1.00. -/
def CutFollows (w : CampaignWorld) (a : CampaignAction) : Prop :=
  match a with
  | .gate (.tick _ _ _) now later =>
    w.gate.gate.state ≠ .hardBreach → (campaignStep w a).gate.gate.state = .hardBreach →
      w.ready now later → (campaignStep w a).adapt.store.dialLevel = some cutLevel
  | _ => True

/-- A tick that moves the gate to `HARD_BREACH` before a ready cutter is taken at
dial level 1.00. -/
def EngagesAtFloor (w : CampaignWorld) : CampaignAction → Prop
  | .gate (.tick dropPct denominator _) now later =>
    Engages w.gate dropPct denominator → w.ready now later →
      w.adapt.store.dialLevel = some cutLevel
  | _ => True

/-- Between the steps of the campaign its loop is in neither a tick nor a cut. -/
def Idle (w : CampaignWorld) : Prop := (w.adapt.pods ()).phase = .idle

def CampaignWorld.start (cfg : CampaignConfig) (store : AdaptStore) (cutter : FastCutter) :
    CampaignWorld :=
  ⟨DropGate.init cfg, .start store fun _ => cutter⟩

theorem unmarshalMember_other {key : String} (he : isField key "event" = false)
    (hg : isField key "gated" = false) (ev : FastCutEvent) (v : Json ℚ) :
    unmarshalMember ev (key, v) = some ev := by
  simp [unmarshalMember, he, hg]

/-- Whatever the gate publishes, the cutter reads its event with `gated` unset. -/
theorem unmarshal_marshal (m : BroadcastMessage) :
    unmarshal (marshal m) = some ⟨m.event, false⟩ := by
  have hpct : ∀ ev v, unmarshalMember ev ("drop_pct", v) = some ev :=
    unmarshalMember_other (by decide) (by decide)
  have hevent : ∀ ev, unmarshalMember ev ("event", .str m.event) =
      some { ev with event := m.event } := by
    intro ev
    have hkey : isField "event" "event" = true := by decide
    simp [unmarshalMember, hkey]
  have hts : ∀ ev v, unmarshalMember ev ("ts", v) = some ev :=
    unmarshalMember_other (by decide) (by decide)
  cases hm : m.ts with
  | none => simp [unmarshal, marshal, hm, hpct, hevent]
  | some ts => simp [unmarshal, marshal, hm, hpct, hevent, hts]

theorem receive_marshal (fc : FastCutter) (m : BroadcastMessage) (now later : Instant) :
    fc.receive (unmarshal (marshal m)) now later = (false, fc) := by
  rw [unmarshal_marshal]
  simp [FastCutter.receive]

theorem handleMessage_marshal {w : AdaptWorld Unit} (hw : (w.pods ()).phase = .idle)
    (m : BroadcastMessage) (now later : Instant) :
    handleMessage w (unmarshal (marshal m)) now later = w := by
  have hpods : Function.update w.pods () ⟨(w.pods ()).cutter, .idle⟩ = w.pods := by
    rw [← hw]
    exact Function.update_eq_self () w.pods
  have hmessage : Adapt.step w (.message () (unmarshal (marshal m)) now later true) = w := by
    simp only [Adapt.step, hw, receive_marshal]
    simp [hpods]
  have hread : Adapt.step w (.cutReadLevel () true) = w := by simp only [Adapt.step, hw]
  have hwrite : Adapt.step w (.cutWriteLevel () true) = w := by simp only [Adapt.step, hw]
  have hrecord : Adapt.step w (.cutRecord () true) = w := by simp only [Adapt.step, hw]
  simp only [handleMessage, List.foldl_cons, List.foldl_nil, hmessage, hread, hwrite, hrecord]

theorem deliver_eq {w : AdaptWorld Unit} (hw : (w.pods ()).phase = .idle)
    (ms : List BroadcastMessage) (now later : Instant) : deliver w ms now later = w := by
  induction ms with
  | nil => rfl
  | cons m ms ih =>
    have hm := handleMessage_marshal hw m now later
    simpa only [deliver, List.foldl_cons, hm] using ih

theorem tick_hardBreach_iff (w : GateWorld) (dropPct : ℚ) (denominator : Int) (now : Instant)
    (hw : w.gate.state ≠ .hardBreach) :
    (tick w dropPct denominator now).gate.state = .hardBreach ↔
      Engages w dropPct denominator := by
  by_cases hd : denominator < warmupDenominatorFloor
  · simp [tick, Engages, hd, hw]
  · have hd' := not_lt.mp hd
    cases hs : w.gate.state with
    | hardBreach => exact absurd hs hw
    | normal =>
      simp only [tick, hs, hd, if_false, Engages]
      split_ifs with hmax hsoft <;>
        simp [transitionToHardBreach, transitionToSoftBreach, hmax, hs, hd']
    | softBreach =>
      simp only [tick, hs, hd, if_false, Engages]
      split_ifs with hmax hsoft <;>
        simp [transitionToHardBreach, transitionToNormal, hmax, hs, hd']

theorem campaignStep_gate {w : CampaignWorld} (hw : Idle w) (a : GateAction)
    (now later : Instant) :
    campaignStep w (.gate a now later) = ⟨DropGate.step w.gate a, w.adapt⟩ := by
  simp only [campaignStep, deliver_eq hw]

theorem idle_runTick {w : AdaptWorld Unit} (hw : (w.pods ()).phase = .idle) (cfg : Config)
    (dropPct : Option ℚ) (now : Instant) :
    ((runTick w cfg dropPct now).pods ()).phase = .idle := by
  by_cases hlock : w.store.tickLock = true
  · simp [runTick, Adapt.step, hw, hlock]
  · simp [runTick, Adapt.step, hw, hlock, AdaptWorld.goto, AdaptWorld.withStore]
    split_ifs <;> simp

theorem Idle.campaignStep {w : CampaignWorld} (hw : Idle w) (a : CampaignAction) :
    Idle (campaignStep w a) := by
  cases a with
  | gate a now later =>
    rw [campaignStep_gate hw]
    exact hw
  | controllerTick cfg dropPct now => exact idle_runTick hw cfg dropPct now
  | override level => exact hw
  | configChanged debounceSec =>
    have hphase : (w.adapt.pods ()).phase = .idle := hw
    simp [Idle, GateFastCut.campaignStep, Adapt.step, hphase]
  | expireTickLock => exact hw
  | expireFastcutLock => exact hw

theorem cutFollows_iff {w : CampaignWorld} (hw : Idle w) (a : CampaignAction) :
    CutFollows w a ↔ EngagesAtFloor w a := by
  cases a with
  | gate a now later =>
    cases a with
    | tick dropPct denominator t =>
      simp only [CutFollows, EngagesAtFloor, campaignStep_gate hw, DropGate.step]
      constructor
      · intro h hengages hready
        exact h hengages.1 ((tick_hardBreach_iff _ _ _ _ hengages.1).mpr hengages) hready
      · intro h hbefore hafter hready
        exact h ((tick_hardBreach_iff _ _ _ _ hbefore).mp hafter) hready
    | forceRelease operatorID reason t => exact Iff.rfl
    | restart query t => exact Iff.rfl
  | controllerTick cfg dropPct now => exact Iff.rfl
  | override level => exact Iff.rfl
  | configChanged debounceSec => exact Iff.rfl
  | expireTickLock => exact Iff.rfl
  | expireFastcutLock => exact Iff.rfl

/-- No message of the gate cuts the dial level: it is 1.00 after each engagement
exactly when each engagement finds it there. -/
theorem cut_follows_engagement_iff (cfg : CampaignConfig) (store : AdaptStore)
    (cutter : FastCutter) (l : List CampaignAction) :
    EachStep campaignStep CutFollows (.start cfg store cutter) l ↔
      EachStep campaignStep EngagesAtFloor (.start cfg store cutter) l :=
  eachStep_congr (fun _ a hw _ => hw.campaignStep a) (fun _ a hw => cutFollows_iff hw a) l rfl

def defaultCampaign : CampaignConfig where
  tenantID := 1
  campaignID := 7
  dialMethod := "ADAPT_HARD"
  dropTargetSoft := defaultDropTargetSoft
  dropTargetMax := defaultDropTargetMax
  recoverSeconds := defaultRecoverSeconds

/-- One tick at a drop rate of two percent engages the gate; the cutter has never
cut, the lock is free, and the dial level stays at 3.00. -/
theorem engagement_leaves_dial_level :
    ¬ EachStep campaignStep CutFollows
      (.start defaultCampaign { dialLevel := some ⟨300, 2⟩ } (newFastCutter 30))
      [.gate (.tick 2 500 (unixMilli 1000)) (unixMilli 1001) (unixMilli 1001)] := by
  rintro ⟨h, -⟩
  have hidle : Idle (.start defaultCampaign { dialLevel := some ⟨300, 2⟩ } (newFastCutter 30)) := rfl
  have hfloor := (cutFollows_iff hidle _).mp h
  have hlevel := hfloor (by decide +kernel) (by decide +kernel)
  revert hlevel
  decide +kernel

end GateFastCut

end Vici2
