import Mathlib.Data.List.Basic
import Mathlib.Data.List.Dedup
import Mathlib.Logic.Basic

/-! Reconciliation after a (re)connect to a FreeSWITCH host: the channels of the host
against the active calls in Valkey, and the way of the synthetic events through the
fan-out to the streams. -/

namespace Vici2

namespace Esl

/-- An event with its headers, as far as the fan-out reads it. -/
structure EnrichedEvent where
  headers : List (String × String)
  fsHost : String
  tenantID : Int
  callUUID : String
  critical : Bool
  deriving DecidableEq, Repr

def EnrichedEvent.getHeader (e : EnrichedEvent) (header : String) : String :=
  ((e.headers.find? fun h => h.1 = header).map Prod.snd).getD ""

def EnrichedEvent.getName (e : EnrichedEvent) : String := e.getHeader "Event-Name"

def conferenceStream (action : String) : String :=
  if action = "add-member" then "events:vici2.conference.member_added"
  else if action = "del-member" then "events:vici2.conference.member_left"
  else if action = "conference-create" then "events:vici2.conference.created"
  else if action = "conference-destroy" then "events:vici2.conference.destroyed"
  else ""

/-- `strings.ReplaceAll(suffix, "::", ".")` -/
def replaceColons : List Char → List Char
  | ':' :: ':' :: rest => '.' :: replaceColons rest
  | c :: rest => c :: replaceColons rest
  | [] => []

def customStream (e : EnrichedEvent) : String :=
  let sub := e.getHeader "Event-Subclass"
  if sub = "conference::maintenance" then conferenceStream (e.getHeader "Action")
  else
    match sub.toList with
    | 'v' :: 'i' :: 'c' :: 'i' :: '2' :: ':' :: ':' :: suffix =>
      "events:vici2." ++ String.ofList (replaceColons suffix)
    | _ => ""

def eventStreamName (e : EnrichedEvent) : String :=
  let name := e.getName
  if name = "CHANNEL_CREATE" then "events:vici2.call.created"
  else if name = "CHANNEL_ANSWER" then "events:vici2.call.answered"
  else if name = "CHANNEL_BRIDGE" then "events:vici2.call.bridged"
  else if name = "CHANNEL_UNBRIDGE" then "events:vici2.call.unbridged"
  else if name = "CHANNEL_HANGUP" then "events:vici2.call.hangup"
  else if name = "CHANNEL_HANGUP_COMPLETE" then "events:vici2.call.ended"
  else if name = "RECORD_START" then "events:vici2.recording.started"
  else if name = "RECORD_STOP" then "events:vici2.recording.stopped"
  else if name = "CUSTOM" then customStream e
  else ""

/-- The entries that `fanOutLoop` adds to the streams. -/
def fanOutLoop (events : List EnrichedEvent) : List (String × EnrichedEvent) :=
  events.filterMap fun e => if eventStreamName e ≠ "" then some (eventStreamName e, e) else none

/-- The answer to `show channels as json`. -/
inductive Body
  | empty
  | text
  | invalidJson
  | rows (uuids : List String)
  deriving DecidableEq, Repr

def parseShowChannelsJSON : Body → List String
  | .empty => []
  | .text => []
  | .invalidJson => []
  | .rows uuids => (uuids.filter fun u => u ≠ "").dedup

inductive Kind
  | rehydrate
  | lost
  deriving DecidableEq, Repr

def Kind.subclass : Kind → String
  | .rehydrate => "vici2::reconciled.rehydrate"
  | .lost => "vici2::reconciled.lost"

structure Divergence where
  kind : Kind
  callUUID : String
  fsHost : String
  deriving DecidableEq, Repr

/-- The event is built without headers; of the subclass only `Critical` is left. -/
def emitSyntheticEvent (subclass callUUID fsHost : String) (tenantID : Int) : EnrichedEvent :=
  ⟨[], fsHost, tenantID, callUUID, decide (subclass = Kind.lost.subclass)⟩

/-- The divergences that `reconcile` reports for a host. -/
def reconcile (resp : Except String Body) (valkeyMembers : Except String (List String))
    (fsHost : String) : Except String (List Divergence) :=
  match resp with
  | .error e => .error ("reconcile: show channels: " ++ e)
  | .ok body =>
    let fsUUIDs := parseShowChannelsJSON body
    match valkeyMembers with
    | .error e => .error ("reconcile: SMEMBERS call:active: " ++ e)
    | .ok members =>
      let valkeyUUIDs := members.dedup
      .ok (((fsUUIDs.filter fun u => u ∉ valkeyUUIDs).map fun u => ⟨.rehydrate, u, fsHost⟩) ++
        (valkeyUUIDs.filter fun u => u ∉ fsUUIDs).map fun u => ⟨.lost, u, fsHost⟩)

structure Host where
  fsHost : String
  channels : List String
  deriving DecidableEq, Repr

def Host.Live (h : Host) (uuid : String) : Prop := uuid ∈ h.channels ∧ uuid ≠ ""

instance (h : Host) (uuid : String) : Decidable (h.Live uuid) := inferInstanceAs (Decidable (_ ∧ _))

/-- The hosts one after another, against one active set. -/
def reports (active : List String) (hosts : List Host) : List Divergence :=
  hosts.flatMap fun h => (reconcile (.ok (.rows h.channels)) (.ok active) h.fsHost).toOption.getD []

def published (tenantID : Int) (active : List String) (hosts : List Host) :
    List (String × EnrichedEvent) :=
  fanOutLoop ((reports active hosts).map fun d =>
    emitSyntheticEvent d.kind.subclass d.callUUID d.fsHost tenantID)

def reconciledStream : Kind → String
  | .rehydrate => "events:vici2.reconciled.rehydrate"
  | .lost => "events:vici2.reconciled.lost"

structure SoundAndComplete (tenantID : Int) (active : List String) (hosts : List Host) : Prop where
  sound : ∀ d ∈ reports active hosts, d.kind = .lost → ∀ h ∈ hosts, ¬ h.Live d.callUUID
  complete : ∀ u ∈ active, (∀ h ∈ hosts, ¬ h.Live u) →
    ∃ d ∈ reports active hosts, d.kind = .lost ∧ d.callUUID = u
  published : ∀ d ∈ reports active hosts, ∃ e,
    (reconciledStream d.kind, e) ∈ published tenantID active hosts ∧ e.callUUID = d.callUUID

theorem mem_parseShowChannelsJSON {h : Host} {u : String} :
    u ∈ parseShowChannelsJSON (.rows h.channels) ↔ h.Live u := by
  simp [parseShowChannelsJSON, Host.Live]

theorem mem_reports {active : List String} {hosts : List Host} {d : Divergence} :
    d ∈ reports active hosts ↔ ∃ h ∈ hosts, d.fsHost = h.fsHost ∧
      ((d.kind = .rehydrate ∧ h.Live d.callUUID ∧ d.callUUID ∉ active) ∨
        (d.kind = .lost ∧ d.callUUID ∈ active ∧ ¬ h.Live d.callUUID)) := by
  obtain ⟨kind, u, fsHost⟩ := d
  simp only [reports, List.mem_flatMap, reconcile, Except.toOption, Option.getD_some,
    List.mem_append, List.mem_map, List.mem_filter, List.mem_dedup, mem_parseShowChannelsJSON,
    Divergence.mk.injEq, decide_eq_true_eq]
  constructor
  · rintro ⟨h, hh, ⟨v, hv, rfl, rfl, rfl⟩ | ⟨v, hv, rfl, rfl, rfl⟩⟩
    · exact ⟨h, hh, rfl, Or.inl ⟨rfl, hv⟩⟩
    · exact ⟨h, hh, rfl, Or.inr ⟨rfl, hv⟩⟩
  · rintro ⟨h, hh, rfl, ⟨rfl, hv⟩ | ⟨rfl, hv⟩⟩
    · exact ⟨h, hh, Or.inl ⟨u, hv, rfl, rfl, rfl⟩⟩
    · exact ⟨h, hh, Or.inr ⟨u, hv, rfl, rfl, rfl⟩⟩

theorem eventStreamName_synthetic (subclass callUUID fsHost : String) (tenantID : Int) :
    eventStreamName (emitSyntheticEvent subclass callUUID fsHost tenantID) = "" := by
  simp [eventStreamName, EnrichedEvent.getName, EnrichedEvent.getHeader, emitSyntheticEvent]

/-- With its name and subclass among the headers the event would reach its stream. -/
example : eventStreamName ⟨[("Event-Name", "CUSTOM"), ("Event-Subclass", Kind.lost.subclass)],
    "fs1", 1, "call-1", true⟩ = reconciledStream .lost := by decide

theorem published_eq_nil (tenantID : Int) (active : List String) (hosts : List Host) :
    published tenantID active hosts = [] := by
  simp [published, fanOutLoop, List.filterMap_map, eventStreamName_synthetic]

/-- Every host has exactly the active calls, and without a host no call is active. -/
def Undiverged (active : List String) (hosts : List Host) : Prop :=
  (∀ h ∈ hosts, ∀ u, h.Live u ↔ u ∈ active) ∧ (hosts = [] → active = [])

theorem reports_eq_nil_iff {active : List String} {hosts : List Host} :
    reports active hosts = [] ↔ ∀ h ∈ hosts, ∀ u, h.Live u ↔ u ∈ active := by
  constructor
  · intro hnil h hh u
    have hnone : ∀ d, d ∉ reports active hosts := by simp [hnil]
    constructor
    · intro hlive
      by_contra hu
      exact hnone ⟨.rehydrate, u, h.fsHost⟩ (mem_reports.2 ⟨h, hh, rfl, Or.inl ⟨rfl, hlive, hu⟩⟩)
    · intro hu
      by_contra hlive
      exact hnone ⟨.lost, u, h.fsHost⟩ (mem_reports.2 ⟨h, hh, rfl, Or.inr ⟨rfl, hu, hlive⟩⟩)
  · intro hall
    apply List.eq_nil_iff_forall_not_mem.2
    intro d hd
    obtain ⟨h, hh, -, ⟨-, hlive, hu⟩ | ⟨-, hu, hlive⟩⟩ := mem_reports.1 hd
    · exact hu ((hall h hh d.callUUID).1 hlive)
    · exact hlive ((hall h hh d.callUUID).2 hu)

/-- No live call is reported lost exactly when an active call that lives on one host lives
on all of them. -/
theorem no_live_call_lost_iff {active : List String} {hosts : List Host} :
    (∀ d ∈ reports active hosts, d.kind = .lost → ∀ h ∈ hosts, ¬ h.Live d.callUUID) ↔
      ∀ u ∈ active, (∃ h ∈ hosts, h.Live u) → ∀ h ∈ hosts, h.Live u := by
  constructor
  · rintro hsound u hu ⟨h', hh', hlive'⟩ h hh
    by_contra hlive
    have hd : (⟨.lost, u, h.fsHost⟩ : Divergence) ∈ reports active hosts :=
      mem_reports.2 ⟨h, hh, rfl, Or.inr ⟨rfl, hu, hlive⟩⟩
    exact hsound ⟨.lost, u, h.fsHost⟩ hd rfl h' hh' hlive'
  · intro hall d hd hkind h' hh' hlive'
    obtain ⟨h, hh, -, ⟨hk, -⟩ | ⟨-, hu, hlive⟩⟩ := mem_reports.1 hd
    · simp [hkind] at hk
    · exact hlive (hall d.callUUID hu ⟨h', hh', hlive'⟩ h hh)

/-- The reports are sound, complete and published exactly when there is nothing to
report. -/
theorem reconcile_sound_and_complete_iff (tenantID : Int) (active : List String)
    (hosts : List Host) :
    SoundAndComplete tenantID active hosts ↔ Undiverged active hosts := by
  constructor
  · intro h
    have hnil : reports active hosts = [] := by
      apply List.eq_nil_iff_forall_not_mem.2
      intro d hd
      obtain ⟨e, he, -⟩ := h.published d hd
      simp [published_eq_nil] at he
    refine ⟨reports_eq_nil_iff.1 hnil, ?_⟩
    intro hhosts
    apply List.eq_nil_iff_forall_not_mem.2
    intro u hu
    obtain ⟨d, hd, -⟩ := h.complete u hu (by simp [hhosts])
    simp [hnil] at hd
  · rintro ⟨hall, hempty⟩
    have hnil := reports_eq_nil_iff.2 hall
    refine ⟨by simp [hnil], ?_, by simp [hnil]⟩
    intro u hu hnone
    cases hosts with
    | nil => simp [hempty rfl] at hu
    | cons h hosts =>
      have hlive := (hall h List.mem_cons_self u).2 hu
      exact absurd hlive (hnone h List.mem_cons_self)

/-- Call `b` lives on the second host: the first one reports it lost, and the report
reaches no stream. -/
theorem live_call_reported_lost :
    (⟨.lost, "b", "fs1"⟩ : Divergence) ∈ reports ["a", "b"] [⟨"fs1", ["a"]⟩, ⟨"fs2", ["b"]⟩] ∧
      (Host.mk "fs2" ["b"]).Live "b" ∧
      published 1 ["a", "b"] [⟨"fs1", ["a"]⟩, ⟨"fs2", ["b"]⟩] = [] ∧
      ¬ SoundAndComplete 1 ["a", "b"] [⟨"fs1", ["a"]⟩, ⟨"fs2", ["b"]⟩] := by
  refine ⟨by decide, by decide, by decide, ?_⟩
  intro h
  exact h.sound ⟨.lost, "b", "fs1"⟩ (by decide) rfl ⟨"fs2", ["b"]⟩ (by decide) (by decide)

end Esl

end Vici2
