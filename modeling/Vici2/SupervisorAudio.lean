import Vici2.Delimited
import Vici2.KeyedCount
import Vici2.SupervisorMonitor

/-! Who hears a supervisor. A supervisor that listens is muted, and one that whispers
has a `nospeak` relation to every customer, whatever modes it has been in and whenever
the customers have joined. -/

namespace Vici2

namespace Supervisor

def JoinInputs.ok (order : List (String × String)) : JoinInputs :=
  ⟨false, false, false, false, order, fun _ => false⟩

def MemberInputs.ok : MemberInputs := ⟨false, fun _ => false, fun _ => false⟩

def TransitionInputs.ok (order : List (String × String)) : TransitionInputs :=
  ⟨false, false, order, none, false, false⟩

inductive Action
  | record (callUUID value : String)
  | supervisorJoin (s : Session) (order : List (String × String))
  | newMember (mid : Int)
  | transition (supCallUUID : String) (newMode : Mode) (order : List (String × String))
  deriving DecidableEq, Repr

/-- Operations one after another, every command of which succeeds. -/
def step (w : World) : Action → World
  | .record callUUID value => { w with confMembers := hset w.confMembers callUUID value }
  | .supervisorJoin s order => (onSupervisorJoin (w.enter s) s (.ok order)).2
  | .newMember mid => (onNewMemberJoined { w with customers := mid :: w.customers } mid .ok).2
  | .transition supCallUUID newMode order => (transitionMode w supCallUUID newMode (.ok order)).2

def World.Recorded (w : World) (mid : Int) : Prop :=
  ∃ e ∈ w.confMembers, custMember e.2 = some mid

instance (w : World) (mid : Int) : Decidable (w.Recorded mid) :=
  inferInstanceAs (Decidable (∃ e ∈ w.confMembers, _))

/-- A member is recorded once, under its own call UUID, and before it is announced. The
member ids of a conference are unique. -/
def Admitted (w : World) : Action → Prop
  | .record callUUID _ => callUUID ∉ w.confMembers.map Prod.fst
  | .supervisorJoin s _ =>
    (∀ e ∈ w.confMembers, e.1 = s.supCallUUID → custMember e.2 = none) ∧
      ∀ uuid ∈ w.monitors, ∀ t ∈ w.sessions uuid, uuid ≠ s.supCallUUID → t.memberID ≠ s.memberID
  | .newMember mid => w.Recorded mid
  | .transition _ _ _ => True

instance (w : World) : (a : Action) → Decidable (Admitted w a)
  | .record _ _ => inferInstanceAs (Decidable (_ ∉ _))
  | .supervisorJoin _ _ => inferInstanceAs (Decidable (_ ∧ _))
  | .newMember mid => inferInstanceAs (Decidable (w.Recorded mid))
  | .transition _ _ _ => inferInstanceAs (Decidable True)

/-- No supervisor whose recorded mode is listen or whisper is audible to a customer. -/
def Isolated (w : World) : Prop :=
  ∀ uuid s, w.sessions uuid = some s → s.mode.Silent →
    ∀ cid ∈ w.customers, ¬ w.conf.Audible s.memberID cid

def World.afterCommands (w : World) (cmds : List ConfCmd) : World :=
  { w with conf := cmds.foldl Conference.exec w.conf }

/-- After each command of a transition between listen and whisper. -/
def IsolatedDuring (w : World) : Action → Prop
  | .transition supCallUUID newMode order =>
    ∀ s seq, w.sessions supCallUUID = some s → s.mode.Silent → newMode.Silent →
      buildTransitionSequence s.mode newMode s.memberID (nonAgentNonSupMemberIDs w order) =
        .ok seq →
      ∀ n, Isolated (w.afterCommands (seq.take n))
  | _ => True

structure Inv (w : World) : Prop where
  named : ∀ uuid s, w.sessions uuid = some s → s.supCallUUID = uuid
  listening : ∀ uuid s, w.sessions uuid = some s → s.mode = .eavesdrop →
    w.conf.muted s.memberID = true
  speaking : ∀ uuid s, w.sessions uuid = some s → s.mode ≠ .eavesdrop →
    w.conf.muted s.memberID = false
  whispering : ∀ uuid s, w.sessions uuid = some s → s.mode = .whisper →
    ∀ cid ∈ w.customers, w.conf.nospeak s.memberID cid = true
  recorded : ∀ cid ∈ w.customers, w.Recorded cid
  apart : ∀ uuid uuid' s s', w.sessions uuid = some s → w.sessions uuid' = some s' →
    s.memberID = s'.memberID → uuid = uuid'
  monitored : ∀ uuid s, w.sessions uuid = some s → uuid ∈ w.monitors
  tagged : ∀ uuid s, w.sessions uuid = some s →
    uuid ∈ w.confMembers.map Prod.fst ∧ ∀ e ∈ w.confMembers, e.1 = uuid → custMember e.2 = none

@[simp] theorem Conference.setMuted_nospeak (c : Conference) (mid : Int) (b : Bool) :
    (c.setMuted mid b).nospeak = c.nospeak := rfl

@[simp] theorem Conference.setNospeak_muted (c : Conference) (mid other : Int) (b : Bool) :
    (c.setNospeak mid other b).muted = c.muted := rfl

theorem Conference.setMuted_muted (c : Conference) (mid : Int) (b : Bool) (a : Int) :
    (c.setMuted mid b).muted a = if a = mid then b else c.muted a := by
  simp [Conference.setMuted, Function.update_apply]

theorem Conference.setNospeak_nospeak (c : Conference) (mid other : Int) (b : Bool) (x y : Int) :
    (c.setNospeak mid other b).nospeak x y =
      if x = mid ∧ y = other then b else c.nospeak x y := by
  by_cases hx : x = mid
  · subst hx
    by_cases hy : y = other
    · simp [Conference.setNospeak, hy]
    · simp [Conference.setNospeak, hy]
  · simp [Conference.setNospeak, hx]

section Relations

variable (mid : Int) (b : Bool) (ids : List Int) (c : Conference)

theorem foldl_setNospeak_muted :
    (ids.foldl (fun c cid => c.setNospeak mid cid b) c).muted = c.muted := by
  induction ids generalizing c with
  | nil => rfl
  | cons cid ids ih => exact ih (c.setNospeak mid cid b)

theorem foldl_setNospeak_nospeak (x y : Int) :
    (ids.foldl (fun c cid => c.setNospeak mid cid b) c).nospeak x y =
      if x = mid ∧ y ∈ ids then b else c.nospeak x y := by
  induction ids generalizing c with
  | nil => simp
  | cons cid ids ih =>
    have hh := ih (c.setNospeak mid cid b)
    simp only [List.foldl_cons, hh, Conference.setNospeak_nospeak]
    by_cases hx : x = mid
    · by_cases hy : y ∈ ids
      · simp [hx, hy]
      · simp [hx, hy]
    · simp [hx]

end Relations

theorem foldl_relateNospeak (mid : Int) (ids : List Int) (c : Conference) :
    (ids.map (ConfCmd.relateNospeak mid)).foldl Conference.exec c =
      ids.foldl (fun c cid => c.setNospeak mid cid true) c := by
  rw [List.foldl_map]
  rfl

theorem foldl_relateClear (mid : Int) (ids : List Int) (c : Conference) :
    (ids.map (ConfCmd.relateClear mid)).foldl Conference.exec c =
      ids.foldl (fun c cid => c.setNospeak mid cid false) c := by
  rw [List.foldl_map]
  rfl

theorem relateEach_eq_foldl (mid : Int) (ids : List Int) (c : Conference) (i : Nat) :
    relateEach (fun _ => false) mid c i ids =
      ids.foldl (fun c cid => c.setNospeak mid cid true) c := by
  induction ids generalizing c i with
  | nil => rfl
  | cons cid ids ih =>
    have hh := ih (c.setNospeak mid cid true) (i + 1)
    simpa [relateEach, Conference.exec] using hh

theorem mem_readOrder {order entries : List (String × String)} {e : String × String} :
    e ∈ readOrder order entries ↔ e ∈ entries := by
  by_cases h : order.isPerm entries = true
  · have hp := List.isPerm_iff.1 h
    simp [readOrder, h, hp.mem_iff]
  · simp [readOrder, h]

theorem mem_nonAgentNonSupMemberIDs {w : World} {order : List (String × String)} {mid : Int} :
    mid ∈ nonAgentNonSupMemberIDs w order ↔ w.Recorded mid := by
  simp [nonAgentNonSupMemberIDs, World.Recorded, List.mem_filterMap, mem_readOrder]

theorem mem_hset {h : List (String × String)} {field value : String} {e : String × String} :
    e ∈ hset h field value ↔ e = (field, value) ∨ (e ∈ h ∧ e.1 ≠ field) := by
  by_cases hf : field ∈ h.map Prod.fst
  · rw [hset, if_pos hf, List.mem_map]
    constructor
    · rintro ⟨x, hx, rfl⟩
      by_cases hxf : x.1 = field
      · simp [hxf]
      · simp [hxf, hx]
    · rintro (rfl | ⟨he, hne⟩)
      · obtain ⟨x, hx, hxf⟩ := List.mem_map.1 hf
        exact ⟨x, hx, by simp [hxf]⟩
      · exact ⟨e, he, by simp [hne]⟩
  · have hall : ∀ x ∈ h, x.1 ≠ field := fun x hx hxf => hf (List.mem_map.2 ⟨x, hx, hxf⟩)
    rw [hset, if_neg hf, List.mem_append, List.mem_singleton]
    constructor
    · rintro (he | he)
      · exact Or.inr ⟨he, hall e he⟩
      · exact Or.inl he
    · rintro (he | ⟨he, -⟩)
      · exact Or.inr he
      · exact Or.inl he

theorem field_mem_hset (h : List (String × String)) (field value : String) :
    field ∈ (hset h field value).map Prod.fst :=
  List.mem_map.2 ⟨(field, value), mem_hset.2 (Or.inl rfl), rfl⟩

theorem fields_subset_hset {h : List (String × String)} {field value uuid : String}
    (hu : uuid ∈ h.map Prod.fst) : uuid ∈ (hset h field value).map Prod.fst := by
  by_cases hf : uuid = field
  · subst hf
    exact field_mem_hset h uuid value
  · obtain ⟨e, he, rfl⟩ := List.mem_map.1 hu
    exact List.mem_map.2 ⟨e, mem_hset.2 (Or.inr ⟨he, hf⟩), rfl⟩

theorem custMember_roleTag (memberID : Int) (mode : Mode) :
    custMember (roleTag memberID mode) = none := by
  have hlist : (roleTag memberID mode).toList =
      (toString memberID).toList ++ ':' :: ("supervisor_leg".toList ++ ':' :: mode.text.toList) := by
    simp [roleTag, String.toList_append]
  have hcolon : ∀ x ∈ (toString memberID).toList, (x == ':') = false := by
    intro x hx
    have hne : x ≠ ':' := fun he => Delimited.colon_not_mem_toString_int memberID (he ▸ hx)
    simpa using hne
  have hmid := List.splitOnP_eq_singleton hcolon
  have hrole : List.splitOnP (fun x => x == ':') "supervisor_leg".toList =
      ["supervisor_leg".toList] := by decide
  have hsplit : (roleTag memberID mode).toList.splitOn ':' =
      (toString memberID).toList :: "supervisor_leg".toList :: mode.text.toList.splitOn ':' := by
    rw [hlist, List.splitOn, List.splitOnP_append_cons _ _ (by rfl), hmid,
      List.splitOnP_append_cons _ _ (by rfl), hrole]
    rfl
  simp [custMember, hsplit]

section Steps

variable {w : World}

theorem World.Recorded.hset {mid : Int} {callUUID value : String} (h : w.Recorded mid)
    (hfree : ∀ e ∈ w.confMembers, e.1 = callUUID → custMember e.2 = none) :
    World.Recorded { w with confMembers := hset w.confMembers callUUID value } mid := by
  obtain ⟨e, he, hm⟩ := h
  refine ⟨e, mem_hset.2 (Or.inr ⟨he, ?_⟩), hm⟩
  intro hu
  simp [hfree e he hu] at hm

theorem Inv.isolated (h : Inv w) : Isolated w := by
  intro uuid s hs hsilent cid hcid haud
  rcases hsilent with hm | hm
  · have hmuted := h.listening uuid s hs hm
    exact Bool.noConfusion (hmuted.symm.trans haud.1)
  · have hno := h.whispering uuid s hs hm cid hcid
    exact Bool.noConfusion (hno.symm.trans haud.2)

theorem Inv.record {callUUID value : String} (h : Inv w)
    (hnew : callUUID ∉ w.confMembers.map Prod.fst) : Inv (step w (.record callUUID value)) := by
  have hfree : ∀ e ∈ w.confMembers, e.1 = callUUID → custMember e.2 = none :=
    fun e he hu => absurd (List.mem_map.2 ⟨e, he, hu⟩) hnew
  refine ⟨h.named, h.listening, h.speaking, h.whispering, ?_, h.apart, h.monitored, ?_⟩
  · intro cid hcid
    exact (h.recorded cid hcid).hset hfree
  · intro uuid s hs
    obtain ⟨hkey, htag⟩ := h.tagged uuid s hs
    refine ⟨fields_subset_hset hkey, ?_⟩
    intro e he hu
    rcases mem_hset.1 he with rfl | ⟨he, -⟩
    · have hu' : callUUID = uuid := hu
      subst hu'
      exact absurd hkey hnew
    · exact htag e he hu

/-- The commands of a conference that leave every other member than `mid` alone. -/
def Conference.SameBut (c c' : Conference) (mid : Int) : Prop :=
  ∀ a, a ≠ mid → c'.muted a = c.muted a ∧ c'.nospeak a = c.nospeak a

theorem Conference.SameBut.trans {c c' c'' : Conference} {mid : Int} (h : c.SameBut c' mid)
    (h' : c'.SameBut c'' mid) : c.SameBut c'' mid := by
  intro a ha
  exact ⟨(h' a ha).1.trans (h a ha).1, (h' a ha).2.trans (h a ha).2⟩

theorem Conference.sameBut_setMuted (c : Conference) (mid : Int) (b : Bool) :
    c.SameBut (c.setMuted mid b) mid := by
  intro a ha
  simp [Conference.setMuted, ha]

theorem Conference.sameBut_setNospeak (c : Conference) (mid other : Int) (b : Bool) :
    c.SameBut (c.setNospeak mid other b) mid := by
  intro a ha
  simp [Conference.setNospeak, ha]

def ConfCmd.mid : ConfCmd → Int
  | .mute mid => mid
  | .unmute mid => mid
  | .relateNospeak mid _ => mid
  | .relateClear mid _ => mid

theorem Conference.sameBut_exec (c : Conference) (cmd : ConfCmd) :
    c.SameBut (c.exec cmd) cmd.mid := by
  cases cmd with
  | mute mid => exact c.sameBut_setMuted mid true
  | unmute mid => exact c.sameBut_setMuted mid false
  | relateNospeak mid other => exact c.sameBut_setNospeak mid other true
  | relateClear mid other => exact c.sameBut_setNospeak mid other false

theorem Conference.sameBut_foldl {cmds : List ConfCmd} {mid : Int}
    (h : ∀ cmd ∈ cmds, cmd.mid = mid) (c : Conference) :
    c.SameBut (cmds.foldl Conference.exec c) mid := by
  induction cmds generalizing c with
  | nil => exact fun a _ => ⟨rfl, rfl⟩
  | cons cmd cmds ih =>
    have hfirst := c.sameBut_exec cmd
    rw [h cmd List.mem_cons_self] at hfirst
    exact hfirst.trans (ih (fun x hx => h x (List.mem_cons_of_mem _ hx)) (c.exec cmd))

theorem mid_of_mem_sequence {cur new : Mode} {mid : Int} {ids : List Int} {seq : List ConfCmd}
    (h : buildTransitionSequence cur new mid ids = .ok seq) : ∀ cmd ∈ seq, cmd.mid = mid := by
  have hno : ∀ cmd ∈ ids.map (ConfCmd.relateNospeak mid), cmd.mid = mid := by simp [ConfCmd.mid]
  have hclear : ∀ cmd ∈ ids.map (ConfCmd.relateClear mid), cmd.mid = mid := by simp [ConfCmd.mid]
  cases cur <;> cases new <;> simp only [buildTransitionSequence, Except.ok.injEq, reduceCtorEq] at h
  all_goals subst h
  · exact List.forall_mem_append.2 ⟨hno, by simp [ConfCmd.mid]⟩
  · simp [ConfCmd.mid]
  · exact List.forall_mem_cons.2 ⟨rfl, hclear⟩
  · exact hclear
  · simp [ConfCmd.mid]
  · exact hno

/-- A command of a supervisor's own changes nothing that is heard of the others. -/
theorem Inv.isolated_of_sameBut (h : Inv w) {uuid : String} {s : Session}
    (hs : w.sessions uuid = some s) {c : Conference} (hsame : w.conf.SameBut c s.memberID)
    (hown : s.mode.Silent → ∀ cid ∈ w.customers, ¬ c.Audible s.memberID cid) :
    Isolated { w with conf := c } := by
  intro uuid' t ht hsilent cid hcid haud
  by_cases hm : t.memberID = s.memberID
  · have hu := h.apart uuid' uuid t s ht hs hm
    subst hu
    have hts : t = s := Option.some.inj (ht.symm.trans hs)
    subst hts
    exact hown hsilent cid hcid haud
  · obtain ⟨hmuted, hno⟩ := hsame t.memberID hm
    have hbefore : w.conf.Audible t.memberID cid :=
      ⟨hmuted.symm.trans haud.1, (congrFun hno cid).symm.trans haud.2⟩
    exact h.isolated uuid' t ht hsilent cid hcid hbefore

theorem mem_zadd {z : List String} {member x : String} :
    x ∈ zadd z member ↔ x = member ∨ x ∈ z := by
  by_cases hz : member ∈ z
  · have hadd : zadd z member = z := if_pos hz
    rw [hadd]
    exact ⟨Or.inr, fun h => h.elim (fun heq => heq ▸ hz) id⟩
  · have hadd : zadd z member = z ++ [member] := if_neg hz
    rw [hadd, List.mem_append, List.mem_singleton, or_comm]

/-- One supervisor joins or changes its mode. -/
theorem Inv.replace (h : Inv w) {s : Session} {c : Conference}
    (hfree : ∀ e ∈ w.confMembers, e.1 = s.supCallUUID → custMember e.2 = none)
    (hapart : ∀ uuid t, w.sessions uuid = some t → uuid ≠ s.supCallUUID → t.memberID ≠ s.memberID)
    (hsame : w.conf.SameBut c s.memberID)
    (hlisten : s.mode = .eavesdrop → c.muted s.memberID = true)
    (hspeak : s.mode ≠ .eavesdrop → c.muted s.memberID = false)
    (hwhisper : s.mode = .whisper → ∀ cid ∈ w.customers, c.nospeak s.memberID cid = true) :
    Inv ⟨Function.update w.sessions s.supCallUUID (some s), zadd w.monitors s.supCallUUID,
      hset w.confMembers s.supCallUUID (roleTag s.memberID s.mode), c, w.customers⟩ := by
  refine ⟨?_, ?_, ?_, ?_, ?_, ?_, ?_, ?_⟩
  · intro uuid t ht
    rcases update_some_eq_some.1 ht with ⟨hu, rfl⟩ | ⟨-, ht⟩
    · exact hu.symm
    · exact h.named uuid t ht
  · intro uuid t ht hm
    rcases update_some_eq_some.1 ht with ⟨-, rfl⟩ | ⟨hu, ht⟩
    · exact hlisten hm
    · exact (hsame t.memberID (hapart uuid t ht hu)).1.trans (h.listening uuid t ht hm)
  · intro uuid t ht hm
    rcases update_some_eq_some.1 ht with ⟨-, rfl⟩ | ⟨hu, ht⟩
    · exact hspeak hm
    · exact (hsame t.memberID (hapart uuid t ht hu)).1.trans (h.speaking uuid t ht hm)
  · intro uuid t ht hm cid hcid
    rcases update_some_eq_some.1 ht with ⟨-, rfl⟩ | ⟨hu, ht⟩
    · exact hwhisper hm cid hcid
    · have hno := congrFun (hsame t.memberID (hapart uuid t ht hu)).2 cid
      exact hno.trans (h.whispering uuid t ht hm cid hcid)
  · intro cid hcid
    exact (h.recorded cid hcid).hset hfree
  · intro uuid uuid' t t' ht ht' hm
    rcases update_some_eq_some.1 ht with ⟨hu, hts⟩ | ⟨hu, htw⟩
    · rcases update_some_eq_some.1 ht' with ⟨hu', -⟩ | ⟨hu', htw'⟩
      · exact hu.trans hu'.symm
      · exact absurd (hm.symm.trans (congrArg Session.memberID hts)) (hapart uuid' t' htw' hu')
    · rcases update_some_eq_some.1 ht' with ⟨-, hts'⟩ | ⟨-, htw'⟩
      · exact absurd (hm.trans (congrArg Session.memberID hts')) (hapart uuid t htw hu)
      · exact h.apart uuid uuid' t t' htw htw' hm
  · intro uuid t ht
    have hmem : uuid = s.supCallUUID ∨ uuid ∈ w.monitors := by
      rcases update_some_eq_some.1 ht with ⟨hu, -⟩ | ⟨-, ht⟩
      · exact Or.inl hu
      · exact Or.inr (h.monitored uuid t ht)
    exact mem_zadd.2 hmem
  · intro uuid t ht
    rcases update_some_eq_some.1 ht with ⟨rfl, -⟩ | ⟨hu, ht⟩
    · refine ⟨field_mem_hset _ _ _, ?_⟩
      intro e he hue
      rcases mem_hset.1 he with rfl | ⟨-, hne⟩
      · exact custMember_roleTag s.memberID s.mode
      · exact absurd hue hne
    · obtain ⟨hkey, htag⟩ := h.tagged uuid t ht
      refine ⟨fields_subset_hset hkey, ?_⟩
      intro e he hue
      rcases mem_hset.1 he with rfl | ⟨he, -⟩
      · exact absurd hue.symm hu
      · exact htag e he hue

theorem onSupervisorJoin_ok (w : World) (s : Session) (order : List (String × String)) :
    (onSupervisorJoin w s (.ok order)).2 =
      ⟨Function.update w.sessions s.supCallUUID (some s), zadd w.monitors s.supCallUUID,
        hset w.confMembers s.supCallUUID (roleTag s.memberID s.mode),
        if s.mode = .whisper then
          (nonAgentNonSupMemberIDs { w with
            sessions := Function.update w.sessions s.supCallUUID (some s)
            monitors := zadd w.monitors s.supCallUUID
            confMembers := hset w.confMembers s.supCallUUID (roleTag s.memberID s.mode) }
              order).foldl (fun c cid => c.setNospeak s.memberID cid true) w.conf
        else w.conf,
        w.customers⟩ := by
  by_cases hm : s.mode = .whisper
  · simp [onSupervisorJoin, JoinInputs.ok, hm, relateEach_eq_foldl]
  · simp [onSupervisorJoin, JoinInputs.ok, hm]

theorem foldl_setNospeak_sameBut (mid : Int) (b : Bool) (ids : List Int) (c : Conference) :
    c.SameBut (ids.foldl (fun c cid => c.setNospeak mid cid b) c) mid := by
  intro a ha
  refine ⟨by rw [foldl_setNospeak_muted], ?_⟩
  funext y
  simp [foldl_setNospeak_nospeak, ha]

theorem Inv.supervisorJoin {s : Session} {order : List (String × String)} (h : Inv w)
    (ha : Admitted w (.supervisorJoin s order)) : Inv (step w (.supervisorJoin s order)) := by
  obtain ⟨hfree, hunique⟩ := ha
  have hapart : ∀ uuid t, w.sessions uuid = some t → uuid ≠ s.supCallUUID →
      t.memberID ≠ s.memberID :=
    fun uuid t ht hu => hunique uuid (h.monitored uuid t ht) t ht hu
  have henter := w.conf.sameBut_setMuted s.memberID (decide (s.mode = .eavesdrop))
  have hmuted : (w.conf.setMuted s.memberID (decide (s.mode = .eavesdrop))).muted s.memberID =
      decide (s.mode = .eavesdrop) := by simp [Conference.setMuted_muted]
  have hstep : step w (.supervisorJoin s order) = _ := onSupervisorJoin_ok (w.enter s) s order
  rw [hstep]
  by_cases hm : s.mode = .whisper
  · simp only [hm, if_true]
    rw [← hm]
    refine h.replace hfree hapart (henter.trans (foldl_setNospeak_sameBut _ _ _ _)) ?_ ?_ ?_
    · intro hl
      simp [hm] at hl
    · intro _
      rw [foldl_setNospeak_muted]
      exact hmuted.trans (by simp [hm])
    · intro _ cid hcid
      have hrec : World.Recorded { w.enter s with
          confMembers := hset w.confMembers s.supCallUUID (roleTag s.memberID s.mode) } cid :=
        (h.recorded cid hcid).hset hfree
      rw [foldl_setNospeak_nospeak, if_pos]
      exact ⟨rfl, mem_nonAgentNonSupMemberIDs.2 hrec⟩
  · simp only [hm, if_false]
    refine h.replace hfree hapart henter ?_ ?_ ?_
    · intro hl
      exact hmuted.trans (by simp [hl])
    · intro hl
      exact hmuted.trans (by simp [hl])
    · exact fun hw => absurd hw hm

theorem relateNewMember_muted (w : World) (inp : MemberInputs) (mid : Int) (uuids : List String)
    (c : Conference) : (uuids.foldl (relateNewMember w inp mid) c).muted = c.muted := by
  induction uuids generalizing c with
  | nil => rfl
  | cons uuid uuids ih =>
    rw [List.foldl_cons, ih]
    cases hs : w.sessions uuid with
    | none => simp [relateNewMember, hs]
    | some s =>
      simp only [relateNewMember, hs]
      split <;> rfl

theorem relateNewMember_nospeak_mono (w : World) (inp : MemberInputs) (mid : Int)
    (uuids : List String) {c : Conference} {x y : Int} (h : c.nospeak x y = true) :
    (uuids.foldl (relateNewMember w inp mid) c).nospeak x y = true := by
  induction uuids generalizing c with
  | nil => exact h
  | cons uuid uuids ih =>
    apply ih
    cases hs : w.sessions uuid with
    | none => simpa [relateNewMember, hs] using h
    | some s =>
      simp only [relateNewMember, hs]
      split
      · simp [Conference.exec, Conference.setNospeak_nospeak, h]
      · exact h

theorem relateNewMember_nospeak {w : World} {mid : Int} {uuids : List String} {uuid : String}
    {s : Session} (hu : uuid ∈ uuids) (hs : w.sessions uuid = some s) (hm : s.mode = .whisper)
    (c : Conference) :
    (uuids.foldl (relateNewMember w .ok mid) c).nospeak s.memberID mid = true := by
  induction uuids generalizing c with
  | nil => simp at hu
  | cons first uuids ih =>
    by_cases hf : uuid = first
    · subst hf
      apply relateNewMember_nospeak_mono w .ok mid uuids
      simp [relateNewMember, hs, hm, MemberInputs.ok, Conference.exec, Conference.setNospeak_nospeak]
    · have hrest : uuid ∈ uuids := by simpa [hf] using hu
      exact ih hrest _

theorem Inv.newMember {mid : Int} (h : Inv w) (hrec : w.Recorded mid) :
    Inv (step w (.newMember mid)) := by
  have hstep : step w (.newMember mid) =
      { w with
        customers := mid :: w.customers
        conf := w.monitors.foldl (relateNewMember { w with customers := mid :: w.customers } .ok mid)
          w.conf } := by
    simp [step, onNewMemberJoined, MemberInputs.ok]
  rw [hstep]
  refine ⟨h.named, ?_, ?_, ?_, ?_, h.apart, h.monitored, h.tagged⟩
  · intro uuid s hs hm
    rw [relateNewMember_muted]
    exact h.listening uuid s hs hm
  · intro uuid s hs hm
    rw [relateNewMember_muted]
    exact h.speaking uuid s hs hm
  · intro uuid s hs hm cid hcid
    rcases List.mem_cons.1 hcid with rfl | hcid
    · exact relateNewMember_nospeak (h.monitored uuid s hs) hs hm w.conf
    · apply relateNewMember_nospeak_mono
      exact h.whispering uuid s hs hm cid hcid
  · intro cid hcid
    rcases List.mem_cons.1 hcid with rfl | hcid
    · exact hrec
    · exact h.recorded cid hcid

theorem execSequence_none (c : Conference) (i : Nat) (cmds : List ConfCmd) :
    execSequence none c i cmds = (.ok (), cmds.foldl Conference.exec c) := by
  induction cmds generalizing c i with
  | nil => rfl
  | cons cmd cmds ih => simpa [execSequence] using ih (c.exec cmd) (i + 1)

/-- The commands before the one that fails have been carried out, and no other. -/
theorem execSequence_error {k i : Nat} {c c' : Conference} {cmds : List ConfCmd} {cmd : ConfCmd}
    (h : execSequence (some k) c i cmds = (.error cmd, c')) :
    ∃ n, k = i + n ∧ n < cmds.length ∧ c' = (cmds.take n).foldl Conference.exec c := by
  induction cmds generalizing c i with
  | nil => simp [execSequence] at h
  | cons first cmds ih =>
    by_cases hk : k = i
    · simp only [execSequence, hk, if_true, Prod.mk.injEq] at h
      exact ⟨0, by omega, by simp, by simp [h.2]⟩
    · simp only [execSequence, Option.some.injEq, hk, if_false] at h
      obtain ⟨n, hn, hlen, hc⟩ := ih h
      exact ⟨n + 1, by omega, by simpa using hlen, by simpa using hc⟩

/-- What a completed transition leaves behind for the supervisor itself. -/
theorem foldl_exec_sequence {cur new : Mode} {mid : Int} {ids : List Int} {seq : List ConfCmd}
    (h : buildTransitionSequence cur new mid ids = .ok seq) {c : Conference}
    (hspeak : cur ≠ .eavesdrop → c.muted mid = false) :
    (seq.foldl Conference.exec c).muted mid = decide (new = .eavesdrop) ∧
      (new = .whisper → ∀ cid ∈ ids, (seq.foldl Conference.exec c).nospeak mid cid = true) := by
  cases cur <;> cases new <;> simp only [buildTransitionSequence, Except.ok.injEq, reduceCtorEq] at h
  all_goals subst h
  · have hall : ∀ cid ∈ ids,
        (ids.foldl (fun c cid => c.setNospeak mid cid true) c).nospeak mid cid = true := by
      intro cid hcid
      simp [foldl_setNospeak_nospeak, hcid]
    simpa [List.foldl_append, foldl_relateNospeak, Conference.exec, Conference.setMuted_muted]
      using hall
  · simp [Conference.exec, Conference.setMuted_muted]
  · simp [foldl_relateClear, foldl_setNospeak_muted, Conference.exec, Conference.setMuted_muted]
  · simpa [foldl_relateClear, foldl_setNospeak_muted] using hspeak
  · simp [Conference.exec, Conference.setMuted_muted]
  · have hall : ∀ cid ∈ ids,
        (ids.foldl (fun c cid => c.setNospeak mid cid true) c).nospeak mid cid = true := by
      intro cid hcid
      simp [foldl_setNospeak_nospeak, hcid]
    simpa [foldl_relateNospeak, foldl_setNospeak_muted] using ⟨hspeak (by simp), hall⟩

theorem buildTransitionSequence_ok {cur new : Mode} (h : cur ≠ new) (mid : Int) (ids : List Int) :
    ∃ seq, buildTransitionSequence cur new mid ids = .ok seq := by
  cases cur <;> cases new
  all_goals first
    | exact absurd rfl h
    | exact ⟨_, rfl⟩

theorem Inv.transition {uuid : String} {newMode : Mode} {order : List (String × String)}
    (h : Inv w) : Inv (step w (.transition uuid newMode order)) := by
  cases hs : w.sessions uuid with
  | none => simpa [step, transitionMode, TransitionInputs.ok, hs] using h
  | some s =>
    by_cases hm : s.mode = newMode
    · simpa [step, transitionMode, TransitionInputs.ok, hs, hm] using h
    · obtain ⟨seq, hseq⟩ :=
        buildTransitionSequence_ok hm s.memberID (nonAgentNonSupMemberIDs w order)
      have hname := h.named uuid s hs
      have hz : zadd w.monitors uuid = w.monitors := by simp [zadd, h.monitored uuid s hs]
      have hstep : step w (.transition uuid newMode order) =
          ⟨Function.update w.sessions uuid (some { s with mode := newMode }), zadd w.monitors uuid,
            hset w.confMembers uuid (roleTag s.memberID newMode),
            seq.foldl Conference.exec w.conf, w.customers⟩ := by
        simp [step, transitionMode, TransitionInputs.ok, hs, hm, hseq, execSequence_none, hz]
      rw [hstep, ← hname]
      obtain ⟨hmuted, hno⟩ := foldl_exec_sequence hseq (h.speaking uuid s hs)
      refine Inv.replace (s := { s with mode := newMode }) h ?_ ?_ (Conference.sameBut_foldl (mid_of_mem_sequence hseq) w.conf) ?_ ?_ ?_
      · intro e he hu
        exact (h.tagged uuid s hs).2 e he (hu.trans hname)
      · intro uuid' t ht hu heq
        exact hu ((h.apart uuid' uuid t s ht hs heq).trans hname.symm)
      · intro hl
        exact hmuted.trans (by simpa using hl)
      · intro hl
        exact hmuted.trans (by simpa using hl)
      · intro hw cid hcid
        exact hno hw cid (mem_nonAgentNonSupMemberIDs.2 (h.recorded cid hcid))

theorem Inv.step {a : Action} (h : Inv w) (ha : Admitted w a) : Inv (step w a) := by
  cases a with
  | record callUUID value => exact h.record ha
  | supervisorJoin s order => exact h.supervisorJoin ha
  | newMember mid => exact h.newMember ha
  | transition uuid newMode order => exact h.transition

theorem Inv.empty : Inv World.empty := by
  constructor <;> simp [World.empty]

theorem muted_before_unmute {mid : Int} {ids : List Int} {n : Nat} (hn : n ≤ ids.length)
    (c : Conference) :
    (((ids.map (ConfCmd.relateNospeak mid) ++ [ConfCmd.unmute mid]).take n).foldl Conference.exec c).muted =
      c.muted := by
  have hle : n ≤ (ids.map (ConfCmd.relateNospeak mid)).length := by simpa using hn
  rw [List.take_append_of_le_length hle, ← List.map_take, foldl_relateNospeak,
    foldl_setNospeak_muted]

theorem muted_from_mute (mid : Int) (ids : List Int) (n : Nat) (c : Conference) :
    (((ConfCmd.mute mid :: ids.map (.relateClear mid)).take (n + 1)).foldl Conference.exec c).muted
      mid = true := by
  rw [List.take_succ_cons, List.foldl_cons, ← List.map_take, foldl_relateClear,
    foldl_setNospeak_muted]
  simp [Conference.exec, Conference.setMuted_muted]

/-- A transition to whisper unmutes the supervisor last, and one to listen mutes it
first. -/
theorem Inv.isolatedDuring {a : Action} (h : Inv w) : IsolatedDuring w a := by
  cases a with
  | record _ _ => trivial
  | supervisorJoin _ _ => trivial
  | newMember _ => trivial
  | transition uuid newMode order =>
    intro s seq hs hsilent hnew hseq n
    have hmids : ∀ cmd ∈ seq.take n, cmd.mid = s.memberID :=
      fun cmd hcmd => mid_of_mem_sequence hseq cmd (List.mem_of_mem_take hcmd)
    refine h.isolated_of_sameBut hs (Conference.sameBut_foldl hmids w.conf) ?_
    intro _ cid hcid haud
    have hrec : cid ∈ nonAgentNonSupMemberIDs w order :=
      mem_nonAgentNonSupMemberIDs.2 (h.recorded cid hcid)
    have hdone := foldl_exec_sequence hseq (h.speaking uuid s hs)
    rcases hsilent with hm | hm
    · have hmuted := h.listening uuid s hs hm
      rcases hnew with rfl | rfl
      · simp [hm, buildTransitionSequence] at hseq
      · by_cases hn : n ≤ (nonAgentNonSupMemberIDs w order).length
        · simp only [hm, buildTransitionSequence, Except.ok.injEq] at hseq
          subst hseq
          rw [Conference.Audible, muted_before_unmute hn, hmuted] at haud
          exact Bool.noConfusion haud.1
        · have hlen : seq.length ≤ n := by
            simp only [hm, buildTransitionSequence, Except.ok.injEq] at hseq
            subst hseq
            simp only [List.length_append, List.length_map, List.length_singleton]
            omega
          rw [List.take_of_length_le hlen, Conference.Audible, hdone.2 rfl cid hrec] at haud
          exact Bool.noConfusion haud.2
    · have hno := h.whispering uuid s hs hm cid hcid
      rcases hnew with rfl | rfl
      · simp only [hm, buildTransitionSequence, Except.ok.injEq] at hseq
        subst hseq
        cases n with
        | zero =>
          rw [List.take_zero, List.foldl_nil, Conference.Audible, hno] at haud
          exact Bool.noConfusion haud.2
        | succ n =>
          rw [Conference.Audible, muted_from_mute] at haud
          exact Bool.noConfusion haud.1
      · simp [hm, buildTransitionSequence] at hseq

end Steps

/-- In every run of the operations no supervisor that listens or whispers is audible to a
customer, neither after an operation nor after a command of a transition between the two. -/
theorem supervisors_isolated {l : List Action} (h : EachStep step Admitted World.empty l) :
    Always step Isolated World.empty l ∧ EachStep step IsolatedDuring World.empty l := by
  have hinv : Always step Inv World.empty l :=
    always_of_eachStep (fun w a hw ha => hw.step ha) Inv.empty h
  exact ⟨hinv.mono fun w hw => hw.isolated, hinv.eachStep fun w a hw => hw.isolatedDuring⟩

/-- Two customers; supervisor 30 whispers, barges in, whispers again, listens, and a third
customer joins while it whispers. -/
def threeCustomers : List Action :=
  [.record "c1" "11:customer_leg", .newMember 11, .record "c2" "12:customer_leg", .newMember 12,
    .supervisorJoin ⟨"s1", .whisper, 30⟩ [], .transition "s1" .barge [],
    .transition "s1" .whisper [], .transition "s1" .eavesdrop [], .transition "s1" .whisper [],
    .record "c3" "13:third_leg", .newMember 13]

theorem threeCustomers_isolated : Isolated (threeCustomers.foldl step World.empty) ∧
    ((threeCustomers.foldl step World.empty).conf.nospeak 30 13 = true) := by
  have h : EachStep step Admitted World.empty threeCustomers := by decide
  exact ⟨(supervisors_isolated h).1.last, by decide⟩

/-- A transition from whisper to barge has cleared the relation to a customer before the
command that fails. -/
def ClearedBefore (w : World) (uuid : String) (newMode : Mode) (inp : TransitionInputs) : Prop :=
  newMode = .barge ∧ ∃ s, w.sessions uuid = some s ∧ s.mode = .whisper ∧
    ∃ n, inp.failAt = some n ∧
      ∃ cid ∈ (nonAgentNonSupMemberIDs w inp.order).take n, cid ∈ w.customers

theorem transitionMode_conference {w : World} {uuid : String} {newMode : Mode}
    {inp : TransitionInputs} {cmd : ConfCmd}
    (h : (transitionMode w uuid newMode inp).1 = .error (.conference cmd)) :
    ∃ s seq n, w.sessions uuid = some s ∧
      buildTransitionSequence s.mode newMode s.memberID (nonAgentNonSupMemberIDs w inp.order) =
        .ok seq ∧
      inp.failAt = some n ∧ n < seq.length ∧
      (transitionMode w uuid newMode inp).2 = w.afterCommands (seq.take n) := by
  by_cases hget : inp.hgetallErr = true
  · simp [transitionMode, hget] at h
  · cases hs : w.sessions uuid with
    | none => simp [transitionMode, hget, hs] at h
    | some s =>
      by_cases hm : s.mode = newMode
      · simp [transitionMode, hget, hs, hm] at h
      · by_cases hres : inp.resolveErr = true
        · simp [transitionMode, hget, hs, hm, hres] at h
        · obtain ⟨seq, hseq⟩ :=
            buildTransitionSequence_ok hm s.memberID (nonAgentNonSupMemberIDs w inp.order)
          rcases hexec : execSequence inp.failAt w.conf 0 seq with ⟨r, c⟩
          cases r with
          | ok _ =>
            by_cases hset : inp.hsetErr = true
            · simp [transitionMode, hget, hs, hm, hres, hseq, hexec, hset] at h
            · by_cases hmem : inp.membersErr = true
              · simp [transitionMode, hget, hs, hm, hres, hseq, hexec, hset, hmem] at h
              · simp [transitionMode, hget, hs, hm, hres, hseq, hexec, hset, hmem] at h
          | error first =>
            cases hfail : inp.failAt with
            | none => simp [hfail, execSequence_none] at hexec
            | some k =>
              rw [hfail] at hexec
              obtain ⟨n, hk, hn, hc⟩ := execSequence_error hexec
              have hkn : k = n := by omega
              subst hkn
              refine ⟨s, seq, k, rfl, hseq, rfl, hn, ?_⟩
              rw [← hfail] at hexec
              simp [transitionMode, hget, hs, hm, hres, hseq, hexec, World.afterCommands, hc]

theorem audible_after_clears {mid : Int} {ids : List Int} {c : Conference}
    (hmuted : c.muted mid = false) (cid : Int) :
    ((ids.map (ConfCmd.relateClear mid)).foldl Conference.exec c).Audible mid cid ↔
      cid ∈ ids ∨ c.nospeak mid cid = false := by
  rw [Conference.Audible, foldl_relateClear, foldl_setNospeak_muted, foldl_setNospeak_nospeak]
  by_cases hc : cid ∈ ids
  · simp [hmuted, hc]
  · simp [hmuted, hc]

/-- A transition that does not go from whisper to barge is safe wherever it stops. -/
theorem Inv.isolated_stopped {w : World} (h : Inv w) {uuid : String} {s : Session} {newMode : Mode}
    {order : List (String × String)} {seq : List ConfCmd} {n : Nat}
    (hs : w.sessions uuid = some s)
    (hseq : buildTransitionSequence s.mode newMode s.memberID (nonAgentNonSupMemberIDs w order) =
      .ok seq)
    (hn : n < seq.length) (hsafe : ¬ (s.mode = .whisper ∧ newMode = .barge)) :
    Isolated (w.afterCommands (seq.take n)) := by
  by_cases hboth : s.mode.Silent ∧ newMode.Silent
  · exact h.isolatedDuring (a := .transition uuid newMode order) s seq hs hboth.1 hboth.2 hseq n
  · have hmids : ∀ cmd ∈ seq.take n, cmd.mid = s.memberID :=
      fun cmd hcmd => mid_of_mem_sequence hseq cmd (List.mem_of_mem_take hcmd)
    refine h.isolated_of_sameBut hs (Conference.sameBut_foldl hmids w.conf) ?_
    intro hsilent cid hcid
    have hbarge : s.mode = .eavesdrop ∧ newMode = .barge := by
      cases hm : s.mode <;> cases newMode <;> simp_all [Mode.Silent]
    simp only [hbarge.1, hbarge.2, buildTransitionSequence, Except.ok.injEq] at hseq
    subst hseq
    have hzero : n = 0 := by simpa using hn
    subst hzero
    exact h.isolated uuid s hs hsilent cid hcid

/-- After a conference command of a transition has failed, every supervisor recorded as
listening or whispering is inaudible to the customers exactly when no relation to one of
them has been cleared on the way to barge. -/
theorem failed_transition_isolated_iff {l : List Action}
    (hl : EachStep step Admitted World.empty l) {uuid : String} {newMode : Mode}
    {inp : TransitionInputs} {cmd : ConfCmd}
    (hfail : (transitionMode (l.foldl step World.empty) uuid newMode inp).1 =
      .error (.conference cmd)) :
    Isolated (transitionMode (l.foldl step World.empty) uuid newMode inp).2 ↔
      ¬ ClearedBefore (l.foldl step World.empty) uuid newMode inp := by
  have h : Inv (l.foldl step World.empty) :=
    (always_of_eachStep (fun w a hw ha => Inv.step hw ha) Inv.empty hl).last
  generalize l.foldl step World.empty = w at h hfail
  obtain ⟨s, seq, n, hs, hseq, hat, hn, hafter⟩ := transitionMode_conference hfail
  rw [hafter]
  by_cases hbarge : s.mode = .whisper ∧ newMode = .barge
  · obtain ⟨hm, rfl⟩ := hbarge
    have hmids : ∀ cmd ∈ seq.take n, cmd.mid = s.memberID :=
      fun cmd hcmd => mid_of_mem_sequence hseq cmd (List.mem_of_mem_take hcmd)
    have hsame := Conference.sameBut_foldl hmids w.conf
    have hspeak := h.speaking uuid s hs (by simp [hm])
    simp only [hm, buildTransitionSequence, Except.ok.injEq] at hseq
    subst hseq
    rw [← List.map_take] at hsame ⊢
    constructor
    · rintro hiso ⟨-, t, ht, -, k, hk, cid, hcleared, hcid⟩
      have hkn : n = k := Option.some.inj (hat.symm.trans hk)
      subst hkn
      have haud := (audible_after_clears hspeak cid).2 (Or.inl hcleared)
      exact hiso uuid s hs (Or.inr hm) cid hcid haud
    · intro hclear
      refine h.isolated_of_sameBut hs hsame ?_
      intro _ cid hcid haud
      rcases (audible_after_clears hspeak cid).1 haud with hmem | hno
      · exact hclear ⟨rfl, s, hs, hm, n, hat, cid, hmem, hcid⟩
      · exact Bool.noConfusion (hno.symm.trans (h.whispering uuid s hs hm cid hcid))
  · constructor
    · rintro - ⟨hnew, t, ht, hm, -⟩
      have hts : s = t := Option.some.inj (hs.symm.trans ht)
      subst hts
      exact hbarge ⟨hm, hnew⟩
    · intro _
      exact h.isolated_stopped hs hseq hn hbarge

/-- Every command but the one at `n` succeeds. -/
def TransitionInputs.failingAt (n : Nat) : TransitionInputs := ⟨false, false, [], some n, false, false⟩

def twoCustomers : List Action :=
  [.record "c1" "11:customer_leg", .newMember 11, .record "c2" "12:customer_leg", .newMember 12,
    .supervisorJoin ⟨"s1", .whisper, 30⟩ []]

theorem first_clear_fails_isolated :
    (transitionMode (twoCustomers.foldl step World.empty) "s1" .barge (.failingAt 0)).1 =
        .error (.conference (.relateClear 30 11)) ∧
      Isolated
        (transitionMode (twoCustomers.foldl step World.empty) "s1" .barge (.failingAt 0)).2 := by
  have hl : EachStep step Admitted World.empty twoCustomers := by decide
  have hfail : (transitionMode (twoCustomers.foldl step World.empty) "s1" .barge (.failingAt 0)).1 =
      .error (.conference (.relateClear 30 11)) := by decide
  refine ⟨hfail, (failed_transition_isolated_iff hl hfail).2 ?_⟩
  rintro ⟨-, s, -, -, n, hn, cid, hcid, -⟩
  have hzero : n = 0 := (Option.some.inj hn).symm
  subst hzero
  simp at hcid

/-- The relation to the first customer is cleared, the command for the second one fails,
and the supervisor is still recorded as whispering. -/
theorem second_clear_fails_audible :
    EachStep step Admitted World.empty twoCustomers ∧
      (transitionMode (twoCustomers.foldl step World.empty) "s1" .barge (.failingAt 1)).1 =
        .error (.conference (.relateClear 30 12)) ∧
      (transitionMode (twoCustomers.foldl step World.empty) "s1" .barge (.failingAt 1)).2.sessions
        "s1" = some ⟨"s1", .whisper, 30⟩ ∧
      ¬ Isolated
        (transitionMode (twoCustomers.foldl step World.empty) "s1" .barge (.failingAt 1)).2 := by
  refine ⟨by decide, by decide, by decide, ?_⟩
  intro hiso
  exact hiso "s1" ⟨"s1", .whisper, 30⟩ (by decide) (by decide) 11 (by decide) (by decide)

end Supervisor

end Vici2
