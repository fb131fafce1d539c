import Vici2.GoTime
import Vici2.IsoTime
import Vici2.Runs

/-! Recording of one call: the media server runs the recordings and masks them, and a
hash in Valkey says which one is running and whether it is masked. -/

namespace Vici2

namespace Recording

inductive LifecycleState
  | recording
  | masked
  | stopped
  | failed
  | notActive
  deriving DecidableEq, Repr

/-- The hash of the call, times in nanoseconds since 1970. -/
structure StatusHash where
  path : String
  state : LifecycleState
  startedAt : Int
  pausedAt : Int
  resumedAt : Int
  pauseCount : Int
  campaignID : String
  leadID : Int
  deriving DecidableEq, Repr

structure RecordingStatus where
  callUUID : String
  path : String
  state : LifecycleState
  startedAt : Instant
  pausedAt : Option Instant
  resumedAt : Option Instant
  pauseCount : Int
  deriving DecidableEq, Repr

/-- A recording that the media server runs for the call. -/
structure Running where
  path : String
  masked : Bool
  deriving DecidableEq, Repr

inductive RecordingError
  | consentMissing
  | alreadyActive
  | recordingFailed
  | callNotActive
  | valkey
  deriving DecidableEq, Repr

structure StartRequest where
  callUUID : String
  campaignID : String
  leadID : Int
  consentStatus : String
  recordingsDir : String
  startedAt : Instant
  deriving DecidableEq, Repr

structure Recorder where
  tenantID : Int
  recDir : String
  deriving DecidableEq, Repr

/-- `filepath.Clean` -/
def clean (path : List Char) : List Char :=
  let rooted := path.head? = some '/'
  let parts := (path.splitOn '/').foldl (fun out part =>
    if part = [] ∨ part = ['.'] then out
    else if part = ['.', '.'] then
      match out with
      | top :: rest => if top = ['.', '.'] then part :: out else rest
      | [] => if rooted then [] else [part]
    else part :: out) []
  let text := ['/'].intercalate parts.reverse
  if rooted then '/' :: text else if text = [] then ['.'] else text

/-- `filepath.Join` -/
def join (elems : List String) : String :=
  let elems := elems.filter fun e => e ≠ ""
  if elems = [] then "" else String.ofList (clean (['/'].intercalate (elems.map String.toList)))

def computePath (recordingsDir : String) (tenantID : Int) (campaignID : String) (leadID : Int)
    (callUUID : String) (startedAt : Instant) : String :=
  let (y, m, d) := IsoTime.civil (dayOf (startedAt - unixEpoch))
  join [recordingsDir, toString tenantID, String.ofList (IsoTime.fixedDigits 4 y.toNat),
    String.ofList (IsoTime.fixedDigits 2 m.toNat), String.ofList (IsoTime.fixedDigits 2 d.toNat),
    campaignID ++ "_" ++ toString leadID ++ "_" ++ callUUID ++ ".wav"]

def consentOK (consentStatus : String) : Bool :=
  consentStatus ∈ ["not_required", "prompted_accepted", "assumed", "beep_only", "prompted_assumed"]

/-- The recordings of the call, its hash, and whether a pause of an active recording is
in force. -/
structure World where
  fs : List Running
  hash : Option StatusHash
  paused : Bool
  deriving DecidableEq, Repr

def World.idle : World := ⟨[], none, false⟩

/-- `uuid_record start`; a path that is being recorded already is left as it is. -/
def World.recordStart (w : World) (path : String) : World :=
  if path ∈ w.fs.map Running.path then w else { w with fs := w.fs ++ [⟨path, false⟩] }

def World.recordStop (w : World) (path : String) : World :=
  { w with fs := w.fs.filter fun r => r.path ≠ path }

def World.recordMask (w : World) (path : String) (masked : Bool) : World :=
  { w with fs := w.fs.map fun r => if r.path = path then { r with masked := masked } else r }

def toUnixNano (t : Instant) : Int := int64 (t - unixEpoch)

def fromUnixNano (ns : Int) : Option Instant := if ns > 0 then some (unixEpoch + ns) else none

def read (w : World) (callUUID : String) (err : Bool) : Except RecordingError RecordingStatus :=
  if err then .error .valkey
  else
    match w.hash with
    | none => .error .callNotActive
    | some h =>
      .ok ⟨callUUID, h.path, h.state, (fromUnixNano h.startedAt).getD 0, fromUnixNano h.pausedAt,
        fromUnixNano h.resumedAt, h.pauseCount⟩

def write (w : World) (err : Bool) (h : StatusHash) : World :=
  if err then w else { w with hash := some h }

def setState (w : World) (err : Bool) (state : LifecycleState) : World :=
  if err then w
  else { w with
    hash := some { w.hash.getD ⟨"", .stopped, 0, 0, 0, 0, "", 0⟩ with state := state } }

/-- The clock, and the commands that fail. -/
structure Inputs where
  now : Instant
  readErr : Bool
  eslErr : Bool
  writeErr : Bool
  deriving DecidableEq, Repr

def startRecording (r : Recorder) (w : World) (req : StartRequest) (inp : Inputs) :
    Except RecordingError String × World :=
  if ¬ consentOK req.consentStatus then (.error .consentMissing, w)
  else
    let active : Bool := match read w req.callUUID inp.readErr with
      | .ok existing => existing.state = .recording
      | .error _ => false
    if active then (.error .alreadyActive, w)
    else
      let startedAt := if req.startedAt = 0 then inp.now else req.startedAt
      let recDir := if req.recordingsDir = "" then r.recDir else req.recordingsDir
      let path := computePath recDir r.tenantID req.campaignID req.leadID req.callUUID startedAt
      if inp.eslErr then (.error .recordingFailed, w)
      else
        (.ok path, write (w.recordStart path) inp.writeErr
          ⟨path, .recording, toUnixNano startedAt, 0, 0, 0, req.campaignID, req.leadID⟩)

def stopRecording (w : World) (callUUID : String) (inp : Inputs) :
    Except RecordingError Unit × World :=
  match read w callUUID inp.readErr with
  | .error _ => (.ok (), w)
  | .ok rs =>
    if inp.eslErr then (.error .recordingFailed, w)
    else (.ok (), setState (w.recordStop rs.path) inp.writeErr .stopped)

def pauseRecording (w : World) (callUUID : String) (inp : Inputs) :
    Except RecordingError Unit × World :=
  match read w callUUID inp.readErr with
  | .error _ => (.error .callNotActive, w)
  | .ok rs =>
    if rs.state ≠ .recording then (.ok (), w)
    else if inp.eslErr then (.error .recordingFailed, w)
    else
      (.ok (), write (w.recordMask rs.path true) inp.writeErr
        ⟨rs.path, .masked, toUnixNano rs.startedAt, toUnixNano inp.now, 0, rs.pauseCount + 1, "", 0⟩)

def resumeRecording (w : World) (callUUID : String) (inp : Inputs) :
    Except RecordingError Unit × World :=
  match read w callUUID inp.readErr with
  | .error _ => (.error .callNotActive, w)
  | .ok rs =>
    if rs.state ≠ .masked then (.ok (), w)
    else if inp.eslErr then (.error .recordingFailed, w)
    else
      (.ok (), write (w.recordMask rs.path false) inp.writeErr
        ⟨rs.path, .recording, toUnixNano rs.startedAt, 0, toUnixNano inp.now, rs.pauseCount, "", 0⟩)

inductive Action
  | start (req : StartRequest) (now : Instant)
  | stop (now : Instant)
  | pause (now : Instant)
  | resume (now : Instant)
  | lapse
  deriving DecidableEq, Repr

def Inputs.ok (now : Instant) : Inputs := ⟨now, false, false, false⟩

/-- Operations on the call one after another, every command of which succeeds and has been carried
out; between two of them the hash may reach the end of its time to live. -/
def step (r : Recorder) (callUUID : String) (w : World) : Action → World
  | .start req now => (startRecording r w { req with callUUID := callUUID } (.ok now)).2
  | .stop now => { (stopRecording w callUUID (.ok now)).2 with paused := false }
  | .pause now =>
    let (result, w') := pauseRecording w callUUID (.ok now)
    { w' with paused := w.paused || (decide (result = .ok ()) && w.fs != []) }
  | .resume now => { (resumeRecording w callUUID (.ok now)).2 with paused := false }
  | .lapse => { w with hash := none }

/-- The hash tells which recording is running, if any. -/
def Described : List Running → Option StatusHash → Prop
  | [], none => True
  | [], some h => h.state = .stopped
  | run :: _, some h => h.path = run.path ∧ h.state = if run.masked then .masked else .recording
  | _ :: _, none => False

structure InStep (w : World) : Prop where
  single : w.fs.length ≤ 1
  described : Described w.fs w.hash
  silent : w.paused = true → ∀ run ∈ w.fs, run.masked = true

/-- No recording is started while the hash says masked, and the hash does not lapse while
a recording is running. -/
def Admitted (w : World) : Action → Prop
  | .start req _ => consentOK req.consentStatus = true → ∀ h ∈ w.hash, h.state ≠ .masked
  | .lapse => w.fs = []
  | _ => True

instance (w : World) : (a : Action) → Decidable (Admitted w a)
  | .start req _ =>
    inferInstanceAs (Decidable (consentOK req.consentStatus = true → ∀ h ∈ w.hash, h.state ≠ .masked))
  | .lapse => inferInstanceAs (Decidable (w.fs = []))
  | .stop _ => inferInstanceAs (Decidable True)
  | .pause _ => inferInstanceAs (Decidable True)
  | .resume _ => inferInstanceAs (Decidable True)

/-- A pause is over when nothing is recorded any more. -/
def PauseEnds (w : World) : Prop := w.fs = [] → w.paused = false

/-- What the hash and the media server agree on. -/
theorem InStep.cases {w : World} (h : InStep w) :
    (w.fs = [] ∧ ∀ st ∈ w.hash, st.state = .stopped) ∨
      ∃ run st, w.fs = [run] ∧ w.hash = some st ∧ st.path = run.path ∧
        st.state = if run.masked then .masked else .recording := by
  have hdesc := h.described
  cases hfs : w.fs with
  | nil =>
    rw [hfs] at hdesc
    cases hhash : w.hash with
    | none => exact Or.inl ⟨rfl, by simp⟩
    | some st =>
      rw [hhash] at hdesc
      exact Or.inl ⟨rfl, by simpa [Described] using hdesc⟩
  | cons run rest =>
    have hrest : rest = [] := by
      have hlen := h.single
      rw [hfs, List.length_cons] at hlen
      exact List.length_eq_zero_iff.1 (by omega)
    rw [hfs] at hdesc
    cases hhash : w.hash with
    | none =>
      rw [hhash] at hdesc
      exact hdesc.elim
    | some st =>
      rw [hhash] at hdesc
      exact Or.inr ⟨run, st, by rw [hrest], rfl, hdesc.1, hdesc.2⟩

variable {r : Recorder} {callUUID : String} {w : World}

theorem startRecording_refused {req : StartRequest} {now : Instant}
    (h : consentOK req.consentStatus = false ∨ ∃ st, w.hash = some st ∧ st.state = .recording) :
    (startRecording r w req (.ok now)).2 = w := by
  rcases h with hc | ⟨st, hst, hstate⟩
  · simp [startRecording, hc]
  · by_cases hc : consentOK req.consentStatus = true
    · simp [startRecording, hc, read, Inputs.ok, hst, hstate]
    · simp [startRecording, hc]

theorem startRecording_started (r : Recorder) (req : StartRequest) (now : Instant)
    (hc : consentOK req.consentStatus = true) (h : ∀ st ∈ w.hash, st.state ≠ .recording) :
    ∃ st : StatusHash, st.state = .recording ∧
      (startRecording r w req (.ok now)).2 = { w.recordStart st.path with hash := some st } := by
  refine ⟨⟨computePath (if req.recordingsDir = "" then r.recDir else req.recordingsDir) r.tenantID
    req.campaignID req.leadID req.callUUID (if req.startedAt = 0 then now else req.startedAt),
    .recording, toUnixNano (if req.startedAt = 0 then now else req.startedAt), 0, 0, 0,
    req.campaignID, req.leadID⟩, rfl, ?_⟩
  cases hhash : w.hash with
  | none => simp [startRecording, hc, read, write, Inputs.ok, hhash]
  | some st =>
    have hne := h st hhash
    simp [startRecording, hc, read, write, Inputs.ok, hhash, hne]

theorem step_start_iff {req : StartRequest} {now : Instant} (hw : InStep w) (hp : PauseEnds w) :
    InStep (step r callUUID w (.start req now)) ↔ Admitted w (.start req now) := by
  by_cases hc : consentOK req.consentStatus = true
  · have hstarted : (∀ st ∈ w.hash, st.state ≠ .recording) → ∃ st : StatusHash,
        st.state = .recording ∧ step r callUUID w (.start req now) =
          { w.recordStart st.path with hash := some st } :=
      startRecording_started r { req with callUUID := callUUID } now hc
    rcases hw.cases with ⟨hfs, hstopped⟩ | ⟨run, st, hfs, hst, hpath, hstate⟩
    · -- Nothing is running: a new recording starts, and no pause is in force.
      obtain ⟨st', hrec, hstep⟩ := hstarted fun st hst => by simp [hstopped st hst]
      rw [hstep]
      constructor
      · intro _ _ st hst
        simp [hstopped st hst]
      · intro _
        refine ⟨by simp [World.recordStart, hfs], ?_, ?_⟩
        · simp [World.recordStart, hfs, Described, hrec]
        · intro hpaused
          simp [World.recordStart, hfs, hp hfs] at hpaused
    · cases hmasked : run.masked with
      | false =>
        have hrec : st.state = .recording := by simpa [hmasked] using hstate
        have hstep : step r callUUID w (.start req now) = w :=
          startRecording_refused (Or.inr ⟨st, hst, hrec⟩)
        rw [hstep]
        refine ⟨fun _ _ h hh => ?_, fun _ => hw⟩
        have hsame : st = h := Option.some.inj (hst.symm.trans hh)
        simp [← hsame, hrec]
      | true =>
        have hmask : st.state = .masked := by simpa [hmasked] using hstate
        obtain ⟨st', hrec, hstep⟩ := hstarted fun h hh => by
          have hsame : st = h := Option.some.inj (hst.symm.trans hh)
          simp [← hsame, hmask]
        rw [hstep]
        constructor
        · intro hbad
          by_cases hsame : st'.path = run.path
          · have hdesc := hbad.described
            simp [World.recordStart, hfs, hsame, Described, hmasked, hrec] at hdesc
          · have hlen := hbad.single
            simp [World.recordStart, hfs, hsame] at hlen
        · intro hadm
          exact absurd hmask (hadm hc st hst)
  · have hstep : step r callUUID w (.start req now) = w :=
      startRecording_refused (Or.inl (by simpa using hc))
    rw [hstep]
    exact ⟨fun _ hcon => absurd hcon hc, fun _ => hw⟩

theorem step_stop {now : Instant} (hw : InStep w) : InStep (step r callUUID w (.stop now)) := by
  rcases hw.cases with ⟨hfs, hstopped⟩ | ⟨run, st, hfs, hst, hpath, hstate⟩
  · cases hhash : w.hash with
    | none =>
      refine ⟨?_, ?_, ?_⟩ <;> simp [step, stopRecording, read, Inputs.ok, hhash, hfs, Described]
    | some st =>
      refine ⟨?_, ?_, ?_⟩ <;>
        simp [step, stopRecording, read, Inputs.ok, hhash, hfs, Described, setState, World.recordStop]
  · refine ⟨?_, ?_, ?_⟩ <;>
      simp [step, stopRecording, read, Inputs.ok, hst, hfs, hpath, Described, setState,
        World.recordStop]

theorem step_pause {now : Instant} (hw : InStep w) (hp : PauseEnds w) :
    InStep (step r callUUID w (.pause now)) := by
  rcases hw.cases with ⟨hfs, hstopped⟩ | ⟨run, st, hfs, hst, hpath, hstate⟩
  · cases hhash : w.hash with
    | none =>
      refine ⟨?_, ?_, ?_⟩ <;>
        simp [step, pauseRecording, read, Inputs.ok, hhash, hfs, Described, hp hfs]
    | some st =>
      have hs : st.state = .stopped := hstopped st hhash
      refine ⟨?_, ?_, ?_⟩ <;>
        simp [step, pauseRecording, read, Inputs.ok, hhash, hfs, Described, hs, hp hfs]
  · cases hmasked : run.masked with
    | false =>
      have hrec : st.state = .recording := by simpa [hmasked] using hstate
      refine ⟨?_, ?_, ?_⟩ <;>
        simp [step, pauseRecording, read, write, Inputs.ok, hst, hfs, hpath, hrec, Described,
          World.recordMask]
    | true =>
      have hmask : st.state = .masked := by simpa [hmasked] using hstate
      refine ⟨?_, ?_, ?_⟩ <;>
        simp [step, pauseRecording, read, Inputs.ok, hst, hfs, hpath, hmask, hmasked, Described]

theorem step_resume {now : Instant} (hw : InStep w) : InStep (step r callUUID w (.resume now)) := by
  rcases hw.cases with ⟨hfs, hstopped⟩ | ⟨run, st, hfs, hst, hpath, hstate⟩
  · cases hhash : w.hash with
    | none =>
      refine ⟨?_, ?_, ?_⟩ <;> simp [step, resumeRecording, read, Inputs.ok, hhash, hfs, Described]
    | some st =>
      have hs : st.state = .stopped := hstopped st hhash
      refine ⟨?_, ?_, ?_⟩ <;>
        simp [step, resumeRecording, read, Inputs.ok, hhash, hfs, Described, hs]
  · cases hmasked : run.masked with
    | false =>
      have hrec : st.state = .recording := by simpa [hmasked] using hstate
      refine ⟨?_, ?_, ?_⟩ <;>
        simp [step, resumeRecording, read, Inputs.ok, hst, hfs, hpath, hrec, hmasked, Described]
    | true =>
      have hmask : st.state = .masked := by simpa [hmasked] using hstate
      refine ⟨?_, ?_, ?_⟩ <;>
        simp [step, resumeRecording, read, write, Inputs.ok, hst, hfs, hpath, hmask, Described,
          World.recordMask]

theorem step_lapse_iff (hw : InStep w) :
    InStep (step r callUUID w .lapse) ↔ Admitted w .lapse := by
  constructor
  · intro h
    have hdesc := h.described
    cases hfs : w.fs with
    | nil => exact hfs
    | cons run rest => simp [step, hfs, Described] at hdesc
  · intro hfs
    have hnil : w.fs = [] := hfs
    refine ⟨hw.single, ?_, hw.silent⟩
    simp [step, hnil, Described]

theorem step_inStep_iff (a : Action) (hp : PauseEnds w) (hw : InStep w) :
    InStep (step r callUUID w a) ↔ Admitted w a := by
  cases a with
  | start req now => exact step_start_iff hw hp
  | stop now => exact ⟨fun _ => trivial, fun _ => step_stop hw⟩
  | pause now => exact ⟨fun _ => trivial, fun _ => step_pause hw hp⟩
  | resume now => exact ⟨fun _ => trivial, fun _ => step_resume hw⟩
  | lapse => exact step_lapse_iff hw

theorem pauseRecording_fs_ne_nil {now : Instant} (h : w.fs ≠ []) :
    (pauseRecording w callUUID (.ok now)).2.fs ≠ [] := by
  cases hhash : w.hash with
  | none => simpa [pauseRecording, read, Inputs.ok, hhash] using h
  | some st =>
    by_cases hs : st.state = .recording
    · simpa [pauseRecording, read, write, Inputs.ok, hhash, hs, World.recordMask] using h
    · simpa [pauseRecording, read, Inputs.ok, hhash, hs] using h

theorem step_pauseEnds (a : Action) (hp : PauseEnds w) : PauseEnds (step r callUUID w a) := by
  intro hnil
  cases a with
  | stop now => rfl
  | resume now => rfl
  | lapse => exact hp hnil
  | pause now =>
    have hfs : w.fs = [] := by
      by_contra hne
      exact pauseRecording_fs_ne_nil hne hnil
    simp [step, hfs, hp hfs]
  | start req now =>
    by_cases hc : consentOK req.consentStatus = true
    · by_cases hrec : ∀ st ∈ w.hash, st.state ≠ .recording
      · obtain ⟨st, -, hstart⟩ :=
          startRecording_started r { req with callUUID := callUUID } now hc hrec
        have hstep : step r callUUID w (.start req now) =
            { w.recordStart st.path with hash := some st } := hstart
        rw [hstep] at hnil ⊢
        by_cases hmem : st.path ∈ w.fs.map Running.path
        · simp only [World.recordStart, hmem, if_true] at hnil ⊢
          exact hp hnil
        · simp [World.recordStart, hmem] at hnil
      · have hactive : ∃ st, w.hash = some st ∧ st.state = .recording := by
          simpa using hrec
        have hstep : step r callUUID w (.start req now) = w :=
          startRecording_refused (Or.inr hactive)
        rw [hstep] at hnil ⊢
        exact hp hnil
    · have hstep : step r callUUID w (.start req now) = w :=
        startRecording_refused (Or.inl (by simpa using hc))
      rw [hstep] at hnil ⊢
      exact hp hnil

/-- Hash and media server stay in step throughout exactly when no recording is started
while the hash says masked and the hash does not lapse while a recording is running. -/
theorem recording_in_step_iff (r : Recorder) (callUUID : String) (l : List Action) :
    Always (step r callUUID) InStep World.idle l ↔
      EachStep (step r callUUID) Admitted World.idle l := by
  refine always_iff_eachStep (fun w a hp _ _ => step_pauseEnds a hp)
    (fun w a hp hw => step_inStep_iff a hp hw) l (fun _ => rfl) ?_
  exact ⟨by simp [World.idle], by simp [World.idle, Described], by simp [World.idle]⟩

def recorder : Recorder := ⟨1, "/rec"⟩

/-- A recording is masked; a second start, for another lead, records beside it. -/
def startWhileMasked : List Action :=
  [.start ⟨"", "SOLAR", 42, "assumed", "", unixEpoch⟩ unixEpoch, .pause unixEpoch,
    .start ⟨"", "SOLAR", 43, "assumed", "", unixEpoch⟩ unixEpoch]

theorem start_records_beside_masked :
    ¬ Always (step recorder "call-1") InStep World.idle startWhileMasked ∧
      (startWhileMasked.foldl (step recorder "call-1") World.idle).fs =
        [⟨"/rec/1/1970/01/01/SOLAR_42_call-1.wav", true⟩,
          ⟨"/rec/1/1970/01/01/SOLAR_43_call-1.wav", false⟩] ∧
      (startWhileMasked.foldl (step recorder "call-1") World.idle).paused = true := by
  have hfs : (startWhileMasked.foldl (step recorder "call-1") World.idle).fs =
      [⟨"/rec/1/1970/01/01/SOLAR_42_call-1.wav", true⟩,
        ⟨"/rec/1/1970/01/01/SOLAR_43_call-1.wav", false⟩] := by decide
  refine ⟨?_, hfs, by decide⟩
  intro h
  have hlen := h.last.single
  rw [hfs] at hlen
  simp at hlen

end Recording

end Vici2
