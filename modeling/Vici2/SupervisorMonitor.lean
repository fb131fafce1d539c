import Mathlib.Data.List.Perm.Basic
import Vici2.EslRouter

/-! Supervisors in the conference of an agent. Valkey holds the session of each
supervisor and the members of the conference; FreeSWITCH holds who is muted and
who may not speak to whom. -/

namespace Vici2

namespace Supervisor

inductive Mode
  | eavesdrop
  | whisper
  | barge
  deriving DecidableEq, Repr

def Mode.text : Mode → String
  | .eavesdrop => "listen"
  | .whisper => "whisper"
  | .barge => "barge"

/-- A mode in which the customers must not hear the supervisor. -/
def Mode.Silent (m : Mode) : Prop := m = .eavesdrop ∨ m = .whisper

instance (m : Mode) : Decidable m.Silent := inferInstanceAs (Decidable (_ ∨ _))

structure Session where
  supCallUUID : String
  mode : Mode
  memberID : Int
  deriving DecidableEq, Repr

/-- A command of the conference; `relate` with `nospeak` or with `clear`. -/
inductive ConfCmd
  | mute (mid : Int)
  | unmute (mid : Int)
  | relateNospeak (mid other : Int)
  | relateClear (mid other : Int)
  deriving DecidableEq, Repr

structure Conference where
  muted : Int → Bool
  nospeak : Int → Int → Bool

def Conference.setMuted (c : Conference) (mid : Int) (muted : Bool) : Conference :=
  { c with muted := Function.update c.muted mid muted }

def Conference.setNospeak (c : Conference) (mid other : Int) (nospeak : Bool) : Conference :=
  { c with nospeak := Function.update c.nospeak mid (Function.update (c.nospeak mid) other nospeak) }

def Conference.exec (c : Conference) : ConfCmd → Conference
  | .mute mid => c.setMuted mid true
  | .unmute mid => c.setMuted mid false
  | .relateNospeak mid other => c.setNospeak mid other true
  | .relateClear mid other => c.setNospeak mid other false

def Conference.Audible (c : Conference) (mid other : Int) : Prop :=
  c.muted mid = false ∧ c.nospeak mid other = false

instance (c : Conference) (mid other : Int) : Decidable (c.Audible mid other) :=
  inferInstanceAs (Decidable (_ ∧ _))

def buildTransitionSequence (cur new : Mode) (supMID : Int) (custMIDs : List Int) :
    Except String (List ConfCmd) :=
  match cur, new with
  | .eavesdrop, .whisper => .ok (custMIDs.map (.relateNospeak supMID) ++ [.unmute supMID])
  | .eavesdrop, .barge => .ok [.unmute supMID]
  | .whisper, .eavesdrop => .ok (.mute supMID :: custMIDs.map (.relateClear supMID))
  | .whisper, .barge => .ok (custMIDs.map (.relateClear supMID))
  | .barge, .whisper => .ok (custMIDs.map (.relateNospeak supMID))
  | .barge, .eavesdrop => .ok [.mute supMID]
  | _, _ =>
    .error ("supervisor: unsupported transition \"" ++ cur.text ++ "\" → \"" ++ new.text ++ "\"")

/-- The keys of one agent, and its conference. -/
structure World where
  sessions : String → Option Session
  monitors : List String
  confMembers : List (String × String)
  conf : Conference
  customers : List Int

def World.empty : World := ⟨fun _ => none, [], [], ⟨fun _ => false, fun _ _ => false⟩, []⟩

def hset (h : List (String × String)) (field value : String) : List (String × String) :=
  if field ∈ h.map Prod.fst then h.map fun e => if e.1 = field then (field, value) else e
  else h ++ [(field, value)]

def zadd (z : List String) (member : String) : List String := if member ∈ z then z else z ++ [member]

/-- The member id of a value `<member-id>:<role>` whose role is neither the agent's nor a
supervisor's. -/
def custMember (val : String) : Option Int :=
  match val.toList.splitOn ':' with
  | mid :: role :: _ =>
    if role = "agent_leg".toList ∨ role = "supervisor_leg".toList then none
    else
      let (id, ok) := Affinity.atoi (String.ofList mid)
      if ok then some id else none
  | _ => none

/-- A map is read in any order. -/
def readOrder (order entries : List (String × String)) : List (String × String) :=
  if order.isPerm entries then order else entries

def nonAgentNonSupMemberIDs (w : World) (order : List (String × String)) : List Int :=
  (readOrder order w.confMembers).filterMap fun e => custMember e.2

def roleTag (memberID : Int) (mode : Mode) : String :=
  toString memberID ++ ":supervisor_leg:" ++ mode.text

/-- The relations of `applyWhisperRelate`; one that fails is passed over. -/
def relateEach (fails : Nat → Bool) (supMID : Int) : Conference → Nat → List Int → Conference
  | c, _, [] => c
  | c, i, cid :: rest =>
    relateEach fails supMID (if fails i then c else c.exec (.relateNospeak supMID cid)) (i + 1) rest

structure JoinInputs where
  hsetErr : Bool
  zaddErr : Bool
  membersErr : Bool
  resolveErr : Bool
  order : List (String × String)
  fails : Nat → Bool

inductive JoinError
  | writeSessionHash
  | zaddMonitors
  | hsetConfMembers
  deriving DecidableEq, Repr

/-- The supervisor's channel has entered the conference, muted exactly when it listens. -/
def World.enter (w : World) (s : Session) : World :=
  { w with conf := w.conf.setMuted s.memberID (decide (s.mode = .eavesdrop)) }

def onSupervisorJoin (w : World) (s : Session) (inp : JoinInputs) :
    Except JoinError Unit × World :=
  if inp.hsetErr then (.error .writeSessionHash, w)
  else
    let w := { w with sessions := Function.update w.sessions s.supCallUUID (some s) }
    if inp.zaddErr then (.error .zaddMonitors, w)
    else
      let w := { w with monitors := zadd w.monitors s.supCallUUID }
      if inp.membersErr then (.error .hsetConfMembers, w)
      else
        let w := { w with
          confMembers := hset w.confMembers s.supCallUUID (roleTag s.memberID s.mode) }
        if s.mode = .whisper ∧ ¬ inp.resolveErr then
          (.ok (), { w with
            conf := relateEach inp.fails s.memberID w.conf 0 (nonAgentNonSupMemberIDs w inp.order) })
        else (.ok (), w)

structure MemberInputs where
  zrangeErr : Bool
  hgetallErr : String → Bool
  fails : String → Bool

/-- The body of the loop over the supervisors of the agent. -/
def relateNewMember (w : World) (inp : MemberInputs) (newMemberID : Int) (c : Conference)
    (supUUID : String) : Conference :=
  match w.sessions supUUID with
  | none => c
  | some s =>
    if ¬ inp.hgetallErr supUUID ∧ s.mode = .whisper ∧ ¬ inp.fails supUUID then
      c.exec (.relateNospeak s.memberID newMemberID)
    else c

def onNewMemberJoined (w : World) (newMemberID : Int) (inp : MemberInputs) : Bool × World :=
  if inp.zrangeErr then (false, w)
  else (true, { w with conf := w.monitors.foldl (relateNewMember w inp newMemberID) w.conf })

structure TransitionInputs where
  hgetallErr : Bool
  resolveErr : Bool
  order : List (String × String)
  failAt : Option Nat
  hsetErr : Bool
  membersErr : Bool

inductive TransitionError
  | hgetallSession
  | sessionNotFound
  | sameMode
  | resolveCustMids
  | buildSequence (message : String)
  | conference (cmd : ConfCmd)
  | hsetSessionMode
  deriving DecidableEq, Repr

/-- The commands in order, up to the one that fails. -/
def execSequence (failAt : Option Nat) : Conference → Nat → List ConfCmd → Except ConfCmd Unit × Conference
  | c, _, [] => (.ok (), c)
  | c, i, cmd :: rest =>
    if failAt = some i then (.error cmd, c) else execSequence failAt (c.exec cmd) (i + 1) rest

def transitionMode (w : World) (supCallUUID : String) (newMode : Mode) (inp : TransitionInputs) :
    Except TransitionError Unit × World :=
  if inp.hgetallErr then (.error .hgetallSession, w)
  else
    match w.sessions supCallUUID with
    | none => (.error .sessionNotFound, w)
    | some s =>
      if s.mode = newMode then (.error .sameMode, w)
      else if inp.resolveErr then (.error .resolveCustMids, w)
      else
        match buildTransitionSequence s.mode newMode s.memberID
            (nonAgentNonSupMemberIDs w inp.order) with
        | .error message => (.error (.buildSequence message), w)
        | .ok seq =>
          match execSequence inp.failAt w.conf 0 seq with
          | (.error cmd, c) => (.error (.conference cmd), { w with conf := c })
          | (.ok _, c) =>
            let w := { w with conf := c }
            if inp.hsetErr then (.error .hsetSessionMode, w)
            else
              let w := { w with
                sessions := Function.update w.sessions supCallUUID (some { s with mode := newMode }) }
              if inp.membersErr then (.ok (), w)
              else (.ok (), { w with
                confMembers := hset w.confMembers supCallUUID (roleTag s.memberID newMode) })

end Supervisor

end Vici2
