import Mathlib.Data.List.Basic
import Mathlib.Logic.Function.Basic
import Vici2.Runs

/-! Caller ids from a number pool. A pick reads the counters of every member, chooses
one and increments its counters, each by a Valkey command of its own; the calls of
all pods interleave. -/

namespace Vici2

namespace Pool

inductive Strategy
  | roundRobin
  | random
  | leastRecentlyUsed
  | healthWeightedLru
  deriving DecidableEq, Repr

structure PoolConfig where
  strategy : Strategy
  dailyCap : Int
  maxConcurrent : Int
  deriving DecidableEq, Repr

structure PoolMember where
  npId : Int
  didId : Int
  e164 : String
  areaCode : String
  lastUsedAt : Int
  quarantined : Bool
  deriving DecidableEq, Repr

/-- A member that passed the filter, with the counters as they were read. -/
structure Candidate where
  member : PoolMember
  daily : Option Int
  concurrent : Option Int
  deriving DecidableEq, Repr

def msPerDay : Int := 86400000

/-- A daily counter, with the day it was set up. -/
structure DailyCounter where
  value : Int
  expireAt : Option Int
  born : Int
  deriving DecidableEq, Repr

/-- The keys of a tenant's numbers at the time `now`, in milliseconds. `held` counts the
picks of a number that are not released, `made` those of a day. -/
structure Counters where
  now : Int
  concurrent : Int → Option Int
  daily : Int → Option DailyCounter
  cursor : Int
  held : Int → Nat
  made : Int → Int → Nat

def Counters.today (k : Counters) : Int := k.now / msPerDay

def Counters.midnight (k : Counters) : Int := (k.today + 1) * msPerDay

def Counters.liveDaily (k : Counters) (didId : Int) : Option DailyCounter :=
  (k.daily didId).filter fun e => e.expireAt.all fun t => k.now ≤ t

def Counters.getDaily (k : Counters) (didId : Int) : Option Int :=
  (k.liveDaily didId).map DailyCounter.value

def Counters.incrConcurrent (k : Counters) (didId : Int) : Counters :=
  { k with
    concurrent := Function.update k.concurrent didId (some ((k.concurrent didId).getD 0 + 1))
    held := Function.update k.held didId (k.held didId + 1) }

def Counters.setNxDaily (k : Counters) (didId ttl : Int) : Counters :=
  match k.liveDaily didId with
  | some _ => k
  | none => { k with daily := Function.update k.daily didId (some ⟨0, some (k.now + ttl), k.today⟩) }

def Counters.incrDaily (k : Counters) (didId : Int) : Counters :=
  let e := match k.liveDaily didId with
    | some e => { e with value := e.value + 1 }
    | none => ⟨1, none, k.today⟩
  { k with
    daily := Function.update k.daily didId (some e)
    made := Function.update k.made k.today
      (Function.update (k.made k.today) didId (k.made k.today didId + 1)) }

/-- `Release`, for a call that was picked and not released yet. -/
def Counters.release (k : Counters) (didId : Int) : Counters :=
  if k.held didId = 0 then k
  else
    { k with
      concurrent := Function.update k.concurrent didId (some ((k.concurrent didId).getD 0 - 1))
      held := Function.update k.held didId (k.held didId - 1) }

/-- Only the round robin moves the cursor of the pool. -/
def Counters.advanceCursor (k : Counters) (strategy : Strategy) : Counters :=
  if strategy = .roundRobin then { k with cursor := k.cursor + 1 } else k

/-- Where a call of `PickFromPool` stands. -/
inductive Stage
  | checkDaily (areaCodeHint : String) (todo : List PoolMember) (eligible : List Candidate)
  | checkConcurrent (areaCodeHint : String) (m : PoolMember) (daily : Option Int)
      (todo : List PoolMember) (eligible : List Candidate)
  | incrConcurrent (picked : Candidate)
  | readClock (picked : Candidate)
  | untilMidnight (picked : Candidate) (midnight : Int)
  | setNx (picked : Candidate) (midnight ttl : Int)
  | incrDaily (picked : Candidate)
  | returned (picked : Option Candidate)

def pickRoundRobin (eligible : List Candidate) (cursor : Int) : Option Candidate :=
  eligible[(Int.tmod (cursor - 1) eligible.length).toNat]?

def pickRandom (eligible : List Candidate) (r : Nat) : Option Candidate :=
  eligible[r % eligible.length]?

def pickLRU : List Candidate → Option Candidate
  | [] => none
  | c :: cs => some <| cs.foldl
      (fun best m => if m.member.lastUsedAt < best.member.lastUsedAt then m else best) c

/-- The choice among the eligible members. `r` stands for the random numbers, and for
the float weights of the health-weighted strategy. -/
def pickMember (strategy : Strategy) (eligible : List Candidate) (cursor : Int) (r : Nat) :
    Option Candidate :=
  match strategy with
  | .roundRobin => pickRoundRobin eligible cursor
  | .random => pickRandom eligible r
  | .leastRecentlyUsed => pickLRU eligible
  | .healthWeightedLru => pickRandom eligible r

def capReached (val : Option Int) (cap : Int) : Bool := val.any fun v => cap ≤ v

/-- The next command of a pick, or its next reading of the clock. -/
def Stage.advance (config : PoolConfig) (k : Counters) (r : Nat) : Stage → Counters × Stage
  | .checkDaily _ [] eligible =>
    if eligible = [] then (k, .returned none)
    else
      let k := k.advanceCursor config.strategy
      match pickMember config.strategy eligible k.cursor r with
      | none => (k, .returned none)
      | some picked => (k, .incrConcurrent picked)
  | .checkDaily areaCodeHint (m :: todo) eligible =>
    if m.quarantined then (k, .checkDaily areaCodeHint todo eligible)
    else if areaCodeHint ≠ "" ∧ m.areaCode ≠ areaCodeHint then
      (k, .checkDaily areaCodeHint todo eligible)
    else if config.dailyCap > 0 then
      let val := k.getDaily m.didId
      if capReached val config.dailyCap then (k, .checkDaily areaCodeHint todo eligible)
      else (k, .checkConcurrent areaCodeHint m val todo eligible)
    else (k, .checkConcurrent areaCodeHint m none todo eligible)
  | .checkConcurrent areaCodeHint m daily todo eligible =>
    if config.maxConcurrent > 0 then
      let val := k.concurrent m.didId
      if capReached val config.maxConcurrent then (k, .checkDaily areaCodeHint todo eligible)
      else (k, .checkDaily areaCodeHint todo (eligible ++ [⟨m, daily, val⟩]))
    else (k, .checkDaily areaCodeHint todo (eligible ++ [⟨m, daily, none⟩]))
  | .incrConcurrent picked => (k.incrConcurrent picked.member.didId, .readClock picked)
  | .readClock picked => (k, .untilMidnight picked k.midnight)
  | .untilMidnight picked midnight => (k, .setNx picked midnight (max 1000 (midnight - k.now)))
  | .setNx picked _ ttl => (k.setNxDaily picked.member.didId ttl, .incrDaily picked)
  | .incrDaily picked => (k.incrDaily picked.member.didId, .returned (some picked))
  | .returned picked => (k, .returned picked)

structure World where
  counters : Counters
  picks : List Stage

inductive Action
  | begin (areaCodeHint : String) (members : List PoolMember)
  | advance (i r : Nat)
  | release (didId : Int)
  | tick (ms : Nat)

def step (config : PoolConfig) (w : World) : Action → World
  | .begin areaCodeHint members =>
    { w with picks := w.picks ++ [.checkDaily areaCodeHint members []] }
  | .advance i r =>
    match w.picks[i]? with
    | none => w
    | some stage =>
      let next := stage.advance config w.counters r
      ⟨next.1, w.picks.set i next.2⟩
  | .release didId => { w with counters := w.counters.release didId }
  | .tick ms => { w with counters := { w.counters with now := w.counters.now + ms } }

/-- No number was used yet. -/
def World.unused (now : Int) : World :=
  ⟨⟨now, fun _ => none, fun _ => none, 0, fun _ => 0, fun _ _ => 0⟩, []⟩

/-- The caps hold, and no daily counter is there without an expiry. -/
structure CapsKept (config : PoolConfig) (w : World) : Prop where
  concurrent : config.maxConcurrent > 0 → ∀ d, (w.counters.held d : Int) ≤ config.maxConcurrent
  daily : config.dailyCap > 0 → ∀ day d, (w.counters.made day d : Int) ≤ config.dailyCap
  expiry : ∀ d e, w.counters.liveDaily d = some e → e.expireAt ≠ none

/-- No other pick of the number has come between what this one has read and the
command it executes, and midnight has not either. -/
def Stage.Undisturbed (config : PoolConfig) (k : Counters) : Stage → Prop
  | .incrConcurrent picked => config.maxConcurrent > 0 →
      (k.concurrent picked.member.didId).getD 0 ≤ picked.concurrent.getD 0
  | .setNx picked midnight _ =>
    match k.liveDaily picked.member.didId with
    | some e => e.born = k.today
    | none => midnight = k.midnight
  | .incrDaily picked =>
    match k.liveDaily picked.member.didId with
    | some e => e.born = k.today ∧ (config.dailyCap > 0 → e.value ≤ picked.daily.getD 0)
    | none => False
  | _ => True

def Undisturbed (config : PoolConfig) (w : World) : Action → Prop
  | .advance i _ => ∀ stage ∈ w.picks[i]?, stage.Undisturbed config w.counters
  | _ => True

instance (config : PoolConfig) (k : Counters) : (stage : Stage) → Decidable (stage.Undisturbed config k)
  | .incrConcurrent picked => inferInstanceAs (Decidable (config.maxConcurrent > 0 →
      (k.concurrent picked.member.didId).getD 0 ≤ picked.concurrent.getD 0))
  | .setNx picked midnight _ =>
    match h : k.liveDaily picked.member.didId with
    | some e => decidable_of_iff (e.born = k.today) (by simp only [Stage.Undisturbed, h])
    | none => decidable_of_iff (midnight = k.midnight) (by simp only [Stage.Undisturbed, h])
  | .incrDaily picked =>
    match h : k.liveDaily picked.member.didId with
    | some e => decidable_of_iff
        (e.born = k.today ∧ (config.dailyCap > 0 → e.value ≤ picked.daily.getD 0))
        (by simp only [Stage.Undisturbed, h])
    | none => decidable_of_iff False (by simp only [Stage.Undisturbed, h])
  | .checkDaily .. => inferInstanceAs (Decidable True)
  | .checkConcurrent .. => inferInstanceAs (Decidable True)
  | .readClock .. => inferInstanceAs (Decidable True)
  | .untilMidnight .. => inferInstanceAs (Decidable True)
  | .returned .. => inferInstanceAs (Decidable True)

instance (config : PoolConfig) (w : World) : (a : Action) → Decidable (Undisturbed config w a)
  | .advance i _ =>
    inferInstanceAs (Decidable (∀ stage ∈ w.picks[i]?, stage.Undisturbed config w.counters))
  | .begin .. => inferInstanceAs (Decidable True)
  | .release .. => inferInstanceAs (Decidable True)
  | .tick .. => inferInstanceAs (Decidable True)

end Pool

end Vici2
