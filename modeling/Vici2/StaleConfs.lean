import Vici2.Runs
import Mathlib.Data.List.Nodup
import Mathlib.Logic.Function.Basic

/-! The janitor's sweep of stale conferences: a hash remembers since when a conference has
been empty, and a conference that has been for long enough is kicked. Times are in
nanoseconds, the timestamps of the hash in milliseconds. -/

namespace Vici2

namespace Janitor

abbrev Name := List Char

def conferenceName (tenantID userID : Nat) : Name :=
  "agent_t".toList ++ Nat.toDigits 10 tenantID ++ "_u".toList ++ Nat.toDigits 10 userID

def holdConferenceName (tenantID userID : Nat) : Name :=
  conferenceName tenantID userID ++ "_hold".toList

/-- `\d+` and then what `rest` accepts, which never begins with a digit. -/
def digitsThen (rest : Name → Bool) (s : Name) : Bool :=
  !(s.takeWhile Char.isDigit).isEmpty && rest (s.dropWhile Char.isDigit)

def literalThen (literal : Name) (rest : Name → Bool) (s : Name) : Bool :=
  literal.isPrefixOf s && rest (s.drop literal.length)

/-- `agentConfRE` -/
def isAgentHomeConf : Name → Bool :=
  literalThen "agent_t".toList <| digitsThen <| literalThen "_u".toList <| digitsThen fun s =>
    s = [] ∨ s = "_hold".toList

structure ConferenceSummary where
  name : Name
  memberCount : Nat
  deriving DecidableEq, Repr

/-- FreeSWITCH keeps one conference of a name. -/
structure Listing where
  conferences : List ConferenceSummary
  names_nodup : (conferences.map ConferenceSummary.name).Nodup

def Listing.listsEmpty (l : Listing) (name : Name) : Bool :=
  l.conferences.any fun c => c.name = name ∧ c.memberCount = 0

/-- What `ParseInt` makes of a value of the hash. -/
inductive StoredTime
  | ms (t : Int)
  | unreadable
  deriving DecidableEq, Repr

abbrev EmptySince := Name → Option StoredTime

def unixMilli (t : Int) : Int := t / 1000000

/-- The body of the first loop. -/
def note (now : Int) (h : EmptySince) (conf : ConferenceSummary) : EmptySince :=
  if isAgentHomeConf conf.name then Function.update h conf.name none
  else if conf.memberCount > 0 then Function.update h conf.name none
  else
    match h conf.name with
    | some _ => h
    | none => Function.update h conf.name (some (.ms (unixMilli now)))

/-- What becomes of a field of the hash in the second loop. -/
inductive Fate
  | kept
  | dropped
  | kicked
  deriving DecidableEq, Repr

/-- The body of the second loop; `members` is the answer of `ConferenceList`, in which a
conference that is not found has no members, and `kick` whether `ConferenceKick` succeeds. -/
def judge (staleConfAge now : Int) (members : Option Nat) (kick : Bool) (confName : Name)
    (emptyMs : StoredTime) : Fate :=
  if isAgentHomeConf confName then .dropped
  else
    match emptyMs with
    | .unreadable => .dropped
    | .ms t =>
      let emptyDuration := now - t * 1000000
      if emptyDuration < staleConfAge then .kept
      else
        match members with
        | none => .dropped
        | some n => if n > 0 then .dropped else if kick then .kicked else .kept

/-- A sweep with the answers it gets; `listing` is `none` where `ListAllConferences` fails and
`readable` false where HGETALL does. -/
structure Sweep where
  elapsed : Nat
  listing : Option Listing
  readable : Bool
  members : Name → Option Nat
  kick : Name → Bool

/-- The listing has the conference, empty or not. -/
def Sweep.lists (s : Sweep) (name : Name) : Bool :=
  match s.listing with
  | some l => l.conferences.any fun c => c.name = name
  | none => false

/-- The re-check finds no member, and the kick succeeds. -/
def Sweep.finds (s : Sweep) (name : Name) : Bool :=
  s.readable && s.members name = some 0 && s.kick name

structure PastSweep where
  time : Int
  listing : Option Listing

def PastSweep.listsEmpty (s : PastSweep) (name : Name) : Bool :=
  match s.listing with
  | some l => l.listsEmpty name
  | none => false

/-- The hash; beside it, for the statements, the sweeps so far (the latest first). -/
structure JanitorWorld where
  now : Int
  emptySince : EmptySince
  past : List PastSweep

namespace JanitorWorld

def start (now : Int) : JanitorWorld := ⟨now, fun _ => none, []⟩

variable (w : JanitorWorld) (s : Sweep)

def time : Int := w.now + s.elapsed

/-- The hash after the first loop. -/
def noted : EmptySince :=
  match s.listing with
  | some l => l.conferences.foldl (note (w.time s)) w.emptySince
  | none => w.emptySince

def fate (staleConfAge : Int) (name : Name) : Fate :=
  match s.listing with
  | some _ =>
    if s.readable then
      match w.noted s name with
      | some emptyMs => judge staleConfAge (w.time s) (s.members name) (s.kick name) name emptyMs
      | none => .kept
    else .kept
  | none => .kept

def thisSweep : PastSweep := ⟨w.time s, s.listing⟩

/-- `sweepStaleConferences` -/
def sweep (staleConfAge : Int) : JanitorWorld where
  now := w.time s
  emptySince name := if w.fate s staleConfAge name = .kept then w.noted s name else none
  past := w.thisSweep s :: w.past

/-- The conference was listed as empty at every sweep since one at `limit` or before. -/
def ListedEmptySince (past : List PastSweep) (name : Name) (limit : Int) : Prop :=
  ∃ later first earlier, past = later ++ first :: earlier ∧ first.time ≤ limit ∧
    ∀ s ∈ later ++ [first], s.listsEmpty name = true

/-- What the sweep kicks is no agent's conference and has been listed as empty for the age. -/
def Right (staleConfAge : Int) : Prop :=
  ∀ name, w.fate s staleConfAge name = .kicked →
    (∀ tenantID userID, name ≠ conferenceName tenantID userID ∧
      name ≠ holdConferenceName tenantID userID) ∧
    ListedEmptySince (w.thisSweep s :: w.past) name (w.time s - staleConfAge)

/-- The timestamp that a conference has, or else is given. -/
def stamp (name : Name) : StoredTime :=
  (w.emptySince name).getD (.ms (unixMilli (w.time s)))

/-- A sweep that begins with a timestamp has the conference in its listing, empty or not, or
drops the timestamp because its re-check does not find the conference empty. No timestamp is
of age only by the part of a millisecond that it leaves out. -/
structure StepOk (staleConfAge : Int) : Prop where
  listed : ∀ name v, w.emptySince name = some v →
    s.lists name = true ∨ (s.listing.isSome = true ∧ s.readable = true ∧
      s.members name ≠ some 0 ∧ ∀ t, v = .ms t → staleConfAge ≤ w.time s - t * 1000000)
  rounding : ∀ name, s.finds name = true → ∀ p ∈ w.thisSweep s :: w.past,
    w.stamp s name = .ms (unixMilli p.time) →
    staleConfAge ≤ w.time s - unixMilli p.time * 1000000 → staleConfAge ≤ w.time s - p.time

end JanitorWorld

theorem literalThen_append (literal : Name) (rest : Name → Bool) (s : Name) :
    literalThen literal rest (literal ++ s) = rest s := by
  have hprefix : literal.isPrefixOf (literal ++ s) = true :=
    List.isPrefixOf_iff_prefix.2 (List.prefix_append literal s)
  rw [literalThen, hprefix, List.drop_left, Bool.true_and]

theorem digitsThen_append (rest : Name → Bool) (n : Nat) {s : Name}
    (hs : s = [] ∨ ∃ r, s = '_' :: r) : digitsThen rest (Nat.toDigits 10 n ++ s) = rest s := by
  have hdigits : ∀ c ∈ Nat.toDigits 10 n, c.isDigit = true := fun c hc =>
    Nat.isDigit_of_mem_toDigits (by omega) (by omega) hc
  have hstop : s.takeWhile Char.isDigit = [] := by
    rcases hs with rfl | ⟨r, rfl⟩
    · rfl
    · rfl
  have hdrop : s.dropWhile Char.isDigit = s := by
    rcases hs with rfl | ⟨r, rfl⟩
    · rfl
    · rfl
  have htake : (Nat.toDigits 10 n ++ s).takeWhile Char.isDigit = Nat.toDigits 10 n := by
    rw [List.takeWhile_append_of_pos hdigits, hstop, List.append_nil]
  have hrest : (Nat.toDigits 10 n ++ s).dropWhile Char.isDigit = s := by
    rw [List.dropWhile_append_of_pos hdigits, hdrop]
  have hne : (Nat.toDigits 10 n).isEmpty = false :=
    List.isEmpty_eq_false_iff.2 Nat.toDigits_ne_nil
  rw [digitsThen, htake, hrest, hne]
  rfl

theorem isAgentHomeConf_digits (tenantID userID : Nat) {s : Name}
    (hs : s = [] ∨ s = "_hold".toList) :
    isAgentHomeConf (conferenceName tenantID userID ++ s) = true := by
  have hstop : s = [] ∨ ∃ r, s = '_' :: r :=
    hs.imp_right fun heq => ⟨['h', 'o', 'l', 'd'], heq⟩
  have hmiddle : "_u".toList ++ (Nat.toDigits 10 userID ++ s) = [] ∨
      ∃ r, "_u".toList ++ (Nat.toDigits 10 userID ++ s) = '_' :: r :=
    Or.inr ⟨'u' :: (Nat.toDigits 10 userID ++ s), rfl⟩
  have hassoc : ∀ a b c d : Name, a ++ b ++ c ++ d ++ s = a ++ (b ++ (c ++ (d ++ s))) := by
    intro a b c d
    simp only [List.append_assoc]
  have hname : conferenceName tenantID userID ++ s = "agent_t".toList ++
      (Nat.toDigits 10 tenantID ++ ("_u".toList ++ (Nat.toDigits 10 userID ++ s))) :=
    hassoc _ _ _ _
  have hlast := digitsThen_append (fun s => s = [] ∨ s = "_hold".toList) userID hstop
  rw [hname, isAgentHomeConf, literalThen_append, digitsThen_append _ _ hmiddle,
    literalThen_append, hlast]
  exact decide_eq_true hs

/-- The names of agents' conferences are protected. -/
theorem not_agent_of_eq_false {name : Name} (h : isAgentHomeConf name = false)
    (tenantID userID : Nat) :
    name ≠ conferenceName tenantID userID ∧ name ≠ holdConferenceName tenantID userID := by
  constructor
  · rintro rfl
    have hhome := isAgentHomeConf_digits tenantID userID (Or.inl rfl)
    rw [List.append_nil, h] at hhome
    cases hhome
  · rintro rfl
    have hhold := isAgentHomeConf_digits tenantID userID (Or.inr rfl)
    rw [holdConferenceName, hhold] at h
    cases h

def fieldAfter (now : Int) (conf : ConferenceSummary) (v : Option StoredTime) : Option StoredTime :=
  if isAgentHomeConf conf.name = true ∨ conf.memberCount > 0 then none
  else some (v.getD (.ms (unixMilli now)))

section Note

variable {now : Int} {h : EmptySince} {l : List ConferenceSummary} {conf : ConferenceSummary}

theorem note_eq (now : Int) (h : EmptySince) (conf : ConferenceSummary) :
    note now h conf = Function.update h conf.name (fieldAfter now conf (h conf.name)) := by
  by_cases hagent : isAgentHomeConf conf.name = true
  · rw [note, if_pos hagent, fieldAfter, if_pos (Or.inl hagent)]
  · by_cases hfull : conf.memberCount > 0
    · rw [note, if_neg hagent, if_pos hfull, fieldAfter, if_pos (Or.inr hfull)]
    · rw [note, if_neg hagent, if_neg hfull, fieldAfter, if_neg (by simp [hagent, hfull])]
      cases hv : h conf.name with
      | none => rfl
      | some v =>
        have hsame : Function.update h conf.name (h conf.name) = h := Function.update_eq_self _ _
        rw [hv] at hsame
        exact hsame.symm

theorem foldl_note_of_not_mem {name : Name} (hname : name ∉ l.map ConferenceSummary.name) :
    l.foldl (note now) h name = h name := by
  induction l generalizing h with
  | nil => rfl
  | cons conf l ih =>
    rw [List.map_cons, List.mem_cons, not_or] at hname
    rw [List.foldl_cons, ih hname.2, note_eq, Function.update_of_ne hname.1]

theorem foldl_note_of_mem (hl : (l.map ConferenceSummary.name).Nodup) (hconf : conf ∈ l) :
    l.foldl (note now) h conf.name = fieldAfter now conf (h conf.name) := by
  induction l generalizing h with
  | nil => exact absurd hconf List.not_mem_nil
  | cons conf' l ih =>
    rw [List.map_cons, List.nodup_cons] at hl
    rw [List.foldl_cons]
    rcases List.mem_cons.1 hconf with rfl | hmem
    · rw [foldl_note_of_not_mem hl.1, note_eq, Function.update_self]
    · have hne : conf.name ≠ conf'.name := fun heq => hl.1 (heq ▸ List.mem_map_of_mem hmem)
      rw [ih hl.2 hmem, note_eq, Function.update_of_ne hne]

end Note

theorem Listing.listsEmpty_of_mem {l : Listing} {conf : ConferenceSummary}
    (hconf : conf ∈ l.conferences) (hempty : ¬ conf.memberCount > 0) :
    l.listsEmpty conf.name = true := by
  have hzero : conf.memberCount = 0 := by omega
  exact List.any_eq_true.2 ⟨conf, hconf, decide_eq_true ⟨rfl, hzero⟩⟩

namespace JanitorWorld

variable {w : JanitorWorld} {s : Sweep} {name : Name}

theorem noted_of_not_lists (h : s.lists name = false) : w.noted s name = w.emptySince name := by
  cases hlisting : s.listing with
  | none => simp only [noted, hlisting]
  | some l =>
    simp only [noted, hlisting]
    refine foldl_note_of_not_mem fun hmem => ?_
    obtain ⟨conf, hconf, hname⟩ := List.mem_map.1 hmem
    simp only [Sweep.lists, hlisting, List.any_eq_false, decide_eq_true_eq] at h
    exact h conf hconf hname

theorem noted_of_lists (h : s.lists name = true) : ∃ conf l, s.listing = some l ∧
    conf ∈ l.conferences ∧ conf.name = name ∧
    w.noted s name = fieldAfter (w.time s) conf (w.emptySince name) := by
  cases hlisting : s.listing with
  | none =>
    simp only [Sweep.lists, hlisting] at h
    cases h
  | some l =>
    simp only [Sweep.lists, hlisting, List.any_eq_true, decide_eq_true_eq] at h
    obtain ⟨conf, hconf, rfl⟩ := h
    refine ⟨conf, l, rfl, hconf, rfl, ?_⟩
    simp only [noted, hlisting]
    exact foldl_note_of_mem l.names_nodup hconf

/-- A listed conference whose field survives the first loop is listed as empty: one with
members has lost it. -/
theorem noted_of_lists_eq_some (h : s.lists name = true) {v : StoredTime}
    (hnoted : w.noted s name = some v) : (w.thisSweep s).listsEmpty name = true ∧
      v = w.stamp s name := by
  obtain ⟨conf, l, hlisting, hconf, rfl, hfield⟩ := noted_of_lists (w := w) h
  rw [hnoted] at hfield
  by_cases hgone : isAgentHomeConf conf.name = true ∨ conf.memberCount > 0
  · rw [fieldAfter, if_pos hgone] at hfield
    cases hfield
  · rw [fieldAfter, if_neg hgone] at hfield
    refine ⟨?_, Option.some.inj hfield⟩
    simp only [thisSweep, PastSweep.listsEmpty, hlisting]
    exact Listing.listsEmpty_of_mem hconf (not_or.1 hgone).2

theorem stamp_of_noted {v : StoredTime} (hnoted : w.noted s name = some v) :
    w.stamp s name = v := by
  cases hlists : s.lists name with
  | true => exact (noted_of_lists_eq_some hlists hnoted).2.symm
  | false =>
    rw [noted_of_not_lists hlists] at hnoted
    rw [stamp, hnoted, Option.getD_some]

/-- Every sweep from `first` on has listed the conference as empty. -/
def ListedFrom (past : List PastSweep) (name : Name) (first : PastSweep) : Prop :=
  ∃ later earlier, past = later ++ first :: earlier ∧
    ∀ s ∈ later ++ [first], s.listsEmpty name = true

theorem ListedFrom.cons {past : List PastSweep} {first p : PastSweep}
    (h : ListedFrom past name first) (hp : p.listsEmpty name = true) :
    ListedFrom (p :: past) name first := by
  obtain ⟨later, earlier, hpast, hall⟩ := h
  refine ⟨p :: later, earlier, by rw [hpast]; rfl, ?_⟩
  intro s hs
  rcases List.mem_cons.1 hs with rfl | hs
  · exact hp
  · exact hall s hs

theorem ListedFrom.start (past : List PastSweep) {p : PastSweep}
    (hp : p.listsEmpty name = true) : ListedFrom (p :: past) name p := by
  refine ⟨[], past, rfl, ?_⟩
  intro s hs
  rw [List.nil_append, List.mem_singleton] at hs
  rw [hs]
  exact hp

theorem ListedFrom.mem {past : List PastSweep} {first : PastSweep}
    (h : ListedFrom past name first) : first ∈ past := by
  obtain ⟨later, earlier, hpast, -⟩ := h
  rw [hpast]
  exact List.mem_append_right _ List.mem_cons_self

/-- A timestamp is the time of a sweep since which the conference has been listed as empty. -/
def Traced (past : List PastSweep) (name : Name) (v : StoredTime) : Prop :=
  ∃ first, v = .ms (unixMilli first.time) ∧ ListedFrom past name first

def Inv (w : JanitorWorld) : Prop :=
  ∀ name v, w.emptySince name = some v → Traced w.past name v

/-- What the first loop leaves is traced, but for a timestamp that the listing passes over. -/
theorem Inv.noted (h : w.Inv) {v : StoredTime} (hnoted : w.noted s name = some v)
    (hlists : w.emptySince name = some v → s.lists name = true) :
    Traced (w.thisSweep s :: w.past) name v := by
  have hlisted : s.lists name = true := by
    by_contra hnot
    have hold := noted_of_not_lists (w := w) (Bool.eq_false_iff.2 hnot)
    exact hnot (hlists (hold.symm.trans hnoted))
  obtain ⟨hempty, hv⟩ := noted_of_lists_eq_some hlisted hnoted
  cases hold : w.emptySince name with
  | some v' =>
    obtain ⟨first, hms, hrun⟩ := h name v' hold
    rw [stamp, hold, Option.getD_some] at hv
    exact ⟨first, hv.trans hms, hrun.cons hempty⟩
  | none =>
    rw [stamp, hold, Option.getD_none] at hv
    exact ⟨w.thisSweep s, hv, ListedFrom.start _ hempty⟩

/-- What has come of age and is not found empty is dropped. -/
theorem judge_ne_kept {staleConfAge now : Int} {members : Option Nat} {kick : Bool}
    {v : StoredTime} (hmembers : members ≠ some 0)
    (hage : ∀ t, v = .ms t → staleConfAge ≤ now - t * 1000000) :
    judge staleConfAge now members kick name v ≠ .kept := by
  by_cases hagent : isAgentHomeConf name = true
  · simp [judge, hagent]
  · cases v with
    | unreadable => simp [judge, hagent]
    | ms t =>
      have hdue : ¬ now - t * 1000000 < staleConfAge := not_lt.mpr (hage t rfl)
      cases members with
      | none => simp [judge, hagent, hdue]
      | some n =>
        have hpos : n > 0 := Nat.pos_of_ne_zero fun hn => hmembers (congrArg some hn)
        simp [judge, hagent, hdue, hpos]

theorem Inv.sweep (h : w.Inv) {staleConfAge : Int} (hok : w.StepOk s staleConfAge) :
    (w.sweep s staleConfAge).Inv := by
  intro name v hv
  by_cases hkept : w.fate s staleConfAge name = .kept
  · simp only [JanitorWorld.sweep, if_pos hkept] at hv ⊢
    refine h.noted hv fun hold => ?_
    rcases hok.listed name v hold with hlists | ⟨hlisting, hreadable, hmembers, hage⟩
    · exact hlists
    · obtain ⟨l, hl⟩ := Option.isSome_iff_exists.1 hlisting
      simp only [fate, hl, hreadable, hv, if_true] at hkept
      exact absurd hkept (judge_ne_kept hmembers hage)
  · simp only [JanitorWorld.sweep, if_neg hkept] at hv
    cases hv

/-- A sweep that does not keep a field has judged it. -/
theorem fate_cases (w : JanitorWorld) (s : Sweep) (staleConfAge : Int) (name : Name) :
    w.fate s staleConfAge name = .kept ∨
      (s.readable = true ∧ ∃ v, w.noted s name = some v ∧ w.fate s staleConfAge name =
        judge staleConfAge (w.time s) (s.members name) (s.kick name) name v) := by
  unfold fate
  cases s.listing with
  | none => exact Or.inl rfl
  | some l =>
    cases s.readable with
    | false => exact Or.inl rfl
    | true =>
      cases w.noted s name with
      | none => exact Or.inl rfl
      | some v => exact Or.inr ⟨rfl, v, rfl, rfl⟩

theorem of_judge_kicked {staleConfAge now : Int} {members : Option Nat} {kick : Bool}
    {v : StoredTime} (h : judge staleConfAge now members kick name v = .kicked) :
    isAgentHomeConf name = false ∧ members = some 0 ∧ kick = true ∧
      ∀ t, v = .ms t → staleConfAge ≤ now - t * 1000000 := by
  have hagent : isAgentHomeConf name = false := by
    refine Bool.eq_false_iff.2 fun hhome => ?_
    simp [judge, hhome] at h
  cases v with
  | unreadable => simp [judge, hagent] at h
  | ms t =>
    have hage : ¬ now - t * 1000000 < staleConfAge := by
      intro hyoung
      simp [judge, hagent, hyoung] at h
    cases members with
    | none => simp [judge, hagent, hage] at h
    | some n =>
      have hzero : ¬ n > 0 := by
        intro hpos
        simp [judge, hagent, hage, hpos] at h
      have hkick : kick = true := by
        by_contra hfails
        simp [judge, hagent, hage, hzero, hfails] at h
      obtain rfl : n = 0 := by omega
      refine ⟨hagent, rfl, hkick, ?_⟩
      intro t' ht'
      obtain rfl := StoredTime.ms.inj ht'
      exact not_lt.mp hage

theorem of_fate_kicked {staleConfAge : Int} (h : w.fate s staleConfAge name = .kicked) :
    isAgentHomeConf name = false ∧ s.finds name = true ∧ s.members name = some 0 ∧
      ∃ v, w.noted s name = some v ∧
        ∀ t, v = .ms t → staleConfAge ≤ w.time s - t * 1000000 := by
  rcases fate_cases w s staleConfAge name with hkept | ⟨hreadable, v, hnoted, hjudge⟩
  · rw [hkept] at h
    cases h
  · rw [hjudge] at h
    obtain ⟨hagent, hmembers, hkick, hage⟩ := of_judge_kicked h
    have hfinds : s.finds name = true := by simp [Sweep.finds, hreadable, hmembers, hkick]
    exact ⟨hagent, hfinds, hmembers, v, hnoted, hage⟩

theorem Inv.right (h : w.Inv) {staleConfAge : Int} (hok : w.StepOk s staleConfAge) :
    w.Right s staleConfAge := by
  intro name hkicked
  obtain ⟨hagent, hfinds, hzero, v, hnoted, hage⟩ := of_fate_kicked hkicked
  refine ⟨not_agent_of_eq_false hagent, ?_⟩
  have htraced : Traced (w.thisSweep s :: w.past) name v := by
    refine h.noted hnoted fun hold => ?_
    rcases hok.listed name v hold with hlists | ⟨-, -, hmembers, -⟩
    · exact hlists
    · exact absurd hzero hmembers
  obtain ⟨first, rfl, hrun⟩ := htraced
  have hlong := hok.rounding name hfinds first hrun.mem (stamp_of_noted hnoted) (hage _ rfl)
  obtain ⟨later, earlier, hpast, hall⟩ := hrun
  exact ⟨later, first, earlier, hpast, by omega, hall⟩

/-- In a run whose sweeps meet the condition every kick is right. -/
theorem staleConfs_right (staleConfAge now : Int) (sweeps : List Sweep)
    (h : EachStep (fun w s => w.sweep s staleConfAge) (fun w s => w.StepOk s staleConfAge)
      (start now) sweeps) :
    EachStep (fun w s => w.sweep s staleConfAge) (fun w s => w.Right s staleConfAge)
      (start now) sweeps := by
  have hstart : (start now).Inv := by
    intro name v hv
    cases hv
  exact eachStep_of_invariant (fun _ _ hw hok => Inv.sweep hw hok)
    (fun _ _ hw hok => hw.right hok) hstart h

/-- The sweep `elapsed` nanoseconds after the one before it, at which the conference `x` is
listed with so many members or no conference is. -/
def oneSweep (elapsed : Nat) (memberCount : Option Nat) : Sweep where
  elapsed := elapsed
  listing := some
    { conferences := memberCount.toList.map fun n => ⟨['x'], n⟩
      names_nodup := by cases memberCount <;> simp }
  readable := true
  members _ := some 0
  kick _ := true

/-- Between sweeps at whole minutes that all list `x`, only `x` has a timestamp. -/
structure OnTheMinute (w : JanitorWorld) : Prop where
  only : ∀ name, name ≠ ['x'] → w.emptySince name = none
  now : 1000000 ∣ w.now
  past : ∀ p ∈ w.past, 1000000 ∣ p.time

theorem lists_oneSweep {elapsed n : Nat} :
    (oneSweep elapsed (some n)).lists name = decide (name = ['x']) := by
  simp [oneSweep, Sweep.lists, eq_comm]

theorem OnTheMinute.times (h : w.OnTheMinute) (minutes : Nat) (n : Option Nat) :
    ∀ p ∈ w.thisSweep (oneSweep (minutes * 60000000000) n) :: w.past, 1000000 ∣ p.time := by
  intro p hp
  rcases List.mem_cons.1 hp with rfl | hp
  · have hnow := h.now
    simp only [thisSweep, time, oneSweep]
    omega
  · exact h.past p hp

theorem OnTheMinute.stepOk (h : w.OnTheMinute) (minutes n : Nat) (staleConfAge : Int) :
    w.StepOk (oneSweep (minutes * 60000000000) (some n)) staleConfAge where
  listed := by
    intro name v hv
    left
    rw [lists_oneSweep]
    by_contra hname
    rw [h.only name (by simpa using hname)] at hv
    cases hv
  rounding := by
    intro name _ p hp _ hage
    have hwhole := h.times minutes (some n) p hp
    unfold unixMilli at hage
    omega

theorem OnTheMinute.sweep (h : w.OnTheMinute) (minutes n : Nat) (staleConfAge : Int) :
    (w.sweep (oneSweep (minutes * 60000000000) (some n)) staleConfAge).OnTheMinute where
  only := by
    intro name hname
    have hnot : (oneSweep (minutes * 60000000000) (some n)).lists name = false := by
      rw [lists_oneSweep, decide_eq_false hname]
    simp only [JanitorWorld.sweep, noted_of_not_lists hnot, h.only name hname, ite_self]
  now := h.times minutes (some n) _ List.mem_cons_self
  past := h.times minutes (some n)

/-- Empty, filled and emptied again, `x` is kicked five minutes after the second time. -/
theorem staleConfs_right_kicked :
    EachStep (fun w s => w.sweep s 300000000000) (fun w s => w.Right s 300000000000) (start 0)
      [oneSweep 60000000000 (some 0), oneSweep 60000000000 (some 2),
        oneSweep 240000000000 (some 0), oneSweep 300000000000 (some 0)] := by
  refine staleConfs_right 300000000000 0 _ ?_
  have h₀ : (start 0).OnTheMinute := ⟨fun _ _ => rfl, by decide, fun p hp => by cases hp⟩
  have h₁ := h₀.sweep 1 0 300000000000
  have h₂ := h₁.sweep 1 2 300000000000
  have h₃ := h₂.sweep 4 0 300000000000
  exact ⟨h₀.stepOk 1 0 _, h₁.stepOk 1 2 _, h₂.stepOk 4 0 _, h₃.stepOk 5 0 _, trivial⟩

/-- A conference that was gone for one sweep is kicked on the timestamp from before. -/
theorem reappeared_kicked :
    ¬ EachStep (fun w s => w.sweep s 300000000000) (fun w s => w.Right s 300000000000) (start 0)
      [oneSweep 60000000000 (some 0), oneSweep 60000000000 none,
        oneSweep 240000000000 (some 0)] := by
  rintro ⟨-, -, hright, -⟩
  obtain ⟨-, later, first, earlier, hpast, htime, hall⟩ := hright ['x'] (by decide)
  cases later with
  | nil =>
    obtain ⟨rfl, -⟩ := List.cons.inj hpast
    exact absurd htime (by decide)
  | cons last later =>
    -- the sweep before this one did not list the conference
    have hgone : ∃ p ∈ later ++ [first], p.listsEmpty ['x'] = false := by
      obtain ⟨-, hrest⟩ := List.cons.inj hpast
      cases later with
      | nil =>
        obtain ⟨rfl, -⟩ := List.cons.inj hrest
        exact ⟨_, List.mem_cons_self, rfl⟩
      | cons p later =>
        obtain ⟨rfl, -⟩ := List.cons.inj hrest
        exact ⟨_, List.mem_cons_self, rfl⟩
    obtain ⟨p, hp, hfalse⟩ := hgone
    rw [hall p (List.mem_cons_of_mem _ hp)] at hfalse
    cases hfalse

end JanitorWorld

end Janitor

end Vici2
