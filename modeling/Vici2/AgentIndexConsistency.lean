import Vici2.AgentIndex
import Vici2.Runs

/-! The status index of a campaign against the agents' HASHes, along runs of
`SetState`, `Transition` and `PickForCall`. -/

namespace Vici2

namespace Agents

inductive AgentAction
  | setState (cid userID : Int) (status : AgentStatus) (nowMs : Int) (extra : List String)
  | transition (cid userID : Int) (expectedStatus : Option AgentStatus) (newStatus : AgentStatus)
      (nowMs : Int) (extra : List String)
  | pickForCall (cid : Int) (callUUID : String) (nowMs : Int)

def step (s : AgentStore) : AgentAction → AgentStore
  | .setState cid userID status nowMs extra => (setState s cid userID status nowMs extra).2
  | .transition cid userID expected new nowMs extra =>
    (transition s cid userID expected new nowMs extra).2
  | .pickForCall cid callUUID nowMs => (pickForCall s cid callUUID nowMs).2

def AgentStore.Known (s : AgentStore) (u : Int) : Prop := ∃ f v, s.agent u f = some v

/-- The agent is in the set of the status that its HASH names and in no other
set of any campaign; a `campaign_id` in the HASH is that of the set. -/
def IndexedOnce (s : AgentStore) (u : Int) : Prop :=
  ∃ c st, s.agent u "status" = some st.text ∧
    (∀ v, s.agent u "campaign_id" = some v → v = toString c) ∧
    ∀ c' st', u ∈ s.byCampaignStatus c' st' ↔ c' = c ∧ st' = st

def Consistent (s : AgentStore) : Prop := ∀ u, s.Known u → IndexedOnce s u

/-- What the sets hold has a HASH. -/
def MembersKnown (s : AgentStore) : Prop := ∀ c st u, u ∈ s.byCampaignStatus c st → s.Known u

def NoMove (s : AgentStore) (userID : Int) (expected : Option AgentStatus)
    (extra : List String) : Prop :=
  extra.length % 2 ≠ 0 ∨
    (expected.isSome ∧ s.agent userID "status" ≠ expected.map AgentStatus.text)

def KeepsStatus (new : AgentStatus) (l : List (String × String)) : Prop :=
  ∀ v, hset (fun _ => none) l "status" = some v → v = new.text

/-- The `campaign_id` of the HASH after the pairs, if there is one, is the named
campaign. -/
def NamesCampaign (s : AgentStore) (cid userID : Int) (l : List (String × String)) : Prop :=
  ∀ v, (hset (fun _ => none) l "campaign_id").or (s.agent userID "campaign_id") = some v →
    v = toString cid

def OnlyUnder (s : AgentStore) (cid userID : Int) (old new : AgentStatus) : Prop :=
  ∀ c st, userID ∈ s.byCampaignStatus c st → c = cid ∧ (st = old ∨ st = new)

def TransitionKeeps (s : AgentStore) (cid userID : Int) (expected : Option AgentStatus)
    (new : AgentStatus) (extra : List String) : Prop :=
  NoMove s userID expected extra ∨
    (KeepsStatus new (pairsOf extra) ∧ NamesCampaign s cid userID (pairsOf extra) ∧
      OnlyUnder s cid userID (oldStatus expected new) new)

def StepKeepsIndex (s : AgentStore) : AgentAction → Prop
  | .setState cid userID status _ extra => TransitionKeeps s cid userID none status extra
  | .transition cid userID expected new _ extra =>
    TransitionKeeps s cid userID expected new extra
  | .pickForCall _ _ _ => True

/-- What a script run that goes through does: one agent gets the pairs `l` in
its HASH and moves from `old` to `new` in the sets of campaign `cid`. -/
structure Moves (s s' : AgentStore) (cid userID : Int) (old new : AgentStatus)
    (l : List (String × String)) : Prop where
  agent : s'.agent = Function.update s.agent userID (hset (s.agent userID)
    (("status", new.text) :: l))
  byCampaign : ∀ c u st, u ∈ s'.byCampaignStatus c st ↔
    (c = cid ∧ u = userID ∧ st = new) ∨
      (u ∈ s.byCampaignStatus c st ∧ (c = cid → u = userID → st ≠ old))

section Moves

variable {s s' : AgentStore} {cid userID : Int} {old new : AgentStatus} {l : List (String × String)}

theorem Moves.status_eq (h : Moves s s' cid userID old new l) :
    s'.agent userID "status" = (hset (fun _ => none) l "status").or (some new.text) := by
  rw [h.agent, Function.update_self, hset_cons, hset_apply]
  simp

theorem Moves.campaign_eq (h : Moves s s' cid userID old new l) :
    s'.agent userID "campaign_id" =
      (hset (fun _ => none) l "campaign_id").or (s.agent userID "campaign_id") := by
  rw [h.agent, Function.update_self, hset_cons, hset_apply]
  simp

theorem Moves.known (h : Moves s s' cid userID old new l) : s'.Known userID := by
  have hv := h.status_eq
  cases hl : hset (fun _ => none) l "status" with
  | none => exact ⟨"status", new.text, by rw [hv, hl]; rfl⟩
  | some v => exact ⟨"status", v, by rw [hv, hl]; rfl⟩

theorem Moves.status (h : Moves s s' cid userID old new l) :
    s'.agent userID "status" = some new.text ↔ KeepsStatus new l := by
  rw [h.status_eq, KeepsStatus]
  cases hset (fun _ => none) l "status" with
  | none => simp
  | some v => simp

theorem Moves.indexedOnce_iff (h : Moves s s' cid userID old new l) :
    IndexedOnce s' userID ↔
      KeepsStatus new l ∧ NamesCampaign s cid userID l ∧ OnlyUnder s cid userID old new := by
  have hnew : userID ∈ s'.byCampaignStatus cid new :=
    (h.byCampaign cid userID new).mpr (.inl ⟨rfl, rfl, rfl⟩)
  constructor
  · rintro ⟨c, st, hst, hc, hmem⟩
    obtain ⟨rfl, rfl⟩ := (hmem cid new).mp hnew
    rw [h.campaign_eq] at hc
    refine ⟨h.status.mp hst, hc, fun c' st' hst' => ?_⟩
    by_cases ho : c' = cid ∧ st' = old
    · exact ⟨ho.1, .inl ho.2⟩
    · have hstays : userID ∈ s'.byCampaignStatus c' st' :=
        (h.byCampaign c' userID st').mpr (.inr ⟨hst', fun hc' _ ho' => ho ⟨hc', ho'⟩⟩)
      obtain ⟨hc', hn⟩ := (hmem c' st').mp hstays
      exact ⟨hc', .inr hn⟩
  · rintro ⟨hv, hcampaign, honly⟩
    refine ⟨cid, new, h.status.mpr hv, ?_, fun c' st' => ?_⟩
    · rw [h.campaign_eq]
      exact hcampaign
    constructor
    · intro hst'
      rcases (h.byCampaign c' userID st').mp hst' with ⟨hc', -, he⟩ | ⟨hb, hno⟩
      · exact ⟨hc', he⟩
      · obtain ⟨hc', he | he⟩ := honly c' st' hb
        · exact absurd he (hno hc' rfl)
        · exact ⟨hc', he⟩
    · rintro ⟨rfl, rfl⟩
      exact hnew

theorem Moves.frame {u : Int} (h : Moves s s' cid userID old new l) (hu : u ≠ userID) :
    (s'.Known u ↔ s.Known u) ∧ (IndexedOnce s' u ↔ IndexedOnce s u) := by
  have ha : s'.agent u = s.agent u := by
    rw [h.agent, Function.update_of_ne hu]
  have hm : ∀ c st, u ∈ s'.byCampaignStatus c st ↔ u ∈ s.byCampaignStatus c st := by
    intro c st
    rw [h.byCampaign]
    simp [hu]
  constructor
  · simp only [AgentStore.Known, ha]
  · simp only [IndexedOnce, ha, hm]

theorem MembersKnown.moves (hk : MembersKnown s) (h : Moves s s' cid userID old new l) :
    MembersKnown s' := by
  intro c st u hu
  by_cases he : u = userID
  · subst he
    exact h.known
  · rcases (h.byCampaign c u st).mp hu with ⟨-, he', -⟩ | ⟨hb, -⟩
    · exact absurd he' he
    · exact (h.frame he).1.mpr (hk c st u hb)

theorem Consistent.moves_iff (hs : Consistent s) (h : Moves s s' cid userID old new l) :
    Consistent s' ↔
      KeepsStatus new l ∧ NamesCampaign s cid userID l ∧ OnlyUnder s cid userID old new := by
  rw [← h.indexedOnce_iff]
  constructor
  · intro hc
    exact hc userID h.known
  · intro hi u hk
    by_cases hu : u = userID
    · subst hu
      exact hi
    · obtain ⟨hknown, hindexed⟩ := h.frame hu
      exact hindexed.mpr (hs u (hknown.mp hk))

end Moves

theorem mem_update_moveStatus {z : Int → AgentStatus → ZSet Int Int} {cid userID tsMs : Int}
    {old new : AgentStatus} (c u : Int) (st : AgentStatus) :
    u ∈ Function.update z cid (moveStatus (z cid) old new userID tsMs) c st ↔
      (c = cid ∧ u = userID ∧ st = new) ∨
        (u ∈ z c st ∧ (c = cid → u = userID → st ≠ old)) := by
  by_cases hc : c = cid
  · subst hc
    simp [mem_moveStatus]
  · simp [hc]

theorem hset_skip (p : String × String) (l : List (String × String)) (f : String) (hf : f ≠ p.1) :
    hset (fun _ => none) (p :: l) f = hset (fun _ => none) l f := by
  rw [hset_cons, hset_apply]
  simp [hf]

theorem keepsStatus_cons {new : AgentStatus} (p : String × String) (l : List (String × String))
    (hp : "status" ≠ p.1) : KeepsStatus new (p :: l) ↔ KeepsStatus new l := by
  unfold KeepsStatus
  rw [hset_skip p l "status" hp]

theorem namesCampaign_cons {s : AgentStore} {cid userID : Int} (p : String × String)
    (l : List (String × String)) (hp : "campaign_id" ≠ p.1) :
    NamesCampaign s cid userID (p :: l) ↔ NamesCampaign s cid userID l := by
  unfold NamesCampaign
  rw [hset_skip p l "campaign_id" hp]

theorem agentStateTransition_moves {s : AgentStore} {userID : Int}
    {expected : Option AgentStatus} (cid tsMs : Int) (old new : AgentStatus) (extra : List String)
    (h : ¬ (expected.isSome ∧ s.agent userID "status" ≠ expected.map AgentStatus.text)) :
    Moves s (agentStateTransition s cid userID old expected new tsMs extra).2 cid userID old new
      (("last_change_at", toString tsMs) :: pairsOf extra) := by
  unfold agentStateTransition
  rw [if_neg h]
  exact ⟨rfl, fun c u st => mem_update_moveStatus c u st⟩

theorem transition_cases (s : AgentStore) (cid userID : Int) (expected : Option AgentStatus)
    (new : AgentStatus) (nowMs : Int) (extra : List String) :
    (NoMove s userID expected extra ∧
        (transition s cid userID expected new nowMs extra).2 = s) ∨
      (¬ NoMove s userID expected extra ∧
        Moves s (transition s cid userID expected new nowMs extra).2 cid userID
          (oldStatus expected new) new (("last_change_at", toString nowMs) :: pairsOf extra)) := by
  by_cases ho : extra.length % 2 ≠ 0
  · left
    unfold transition
    rw [if_pos ho]
    exact ⟨.inl ho, rfl⟩
  · by_cases he : expected.isSome ∧ s.agent userID "status" ≠ expected.map AgentStatus.text
    · left
      unfold transition
      rw [if_neg ho, agentStateTransition_refused he]
      exact ⟨.inr he, rfl⟩
    · right
      have hmoves := agentStateTransition_moves cid nowMs (oldStatus expected new) new extra he
      unfold transition
      rw [if_neg ho]
      refine ⟨?_, hmoves⟩
      rintro (h | h)
      · exact ho h
      · exact he h

theorem setState_eq (s : AgentStore) (cid userID : Int) (status : AgentStatus) (nowMs : Int)
    (extra : List String) : (setState s cid userID status nowMs extra).2 =
      (transition s cid userID none status nowMs extra).2 := by
  unfold setState
  rcases transition s cid userID none status nowMs extra with ⟨e | b, s'⟩
  · rfl
  · cases b <;> rfl

theorem pickForCall_cases (s : AgentStore) (cid : Int) (callUUID : String) (nowMs : Int) :
    (pickForCall s cid callUUID nowMs).2 = s ∨
      ∃ userID, userID ∈ s.byCampaignStatus cid .ready ∧
        Moves s (pickForCall s cid callUUID nowMs).2 cid userID .ready .reserved
          [("call_uuid", callUUID), ("last_change_at", toString nowMs)] := by
  unfold pickForCall pickAgentForCall
  cases hf : (s.byCampaignStatus cid .ready).zfirst with
  | none => exact .inl rfl
  | some userID =>
    right
    refine ⟨userID, ?_, ⟨rfl, fun c u st => mem_update_moveStatus c u st⟩⟩
    obtain ⟨e, he, rfl⟩ := Option.map_eq_some_iff.mp hf
    exact ZSet.mem_iff.mpr (List.mem_map_of_mem (List.mem_of_mem_head? he))

theorem Consistent.transition_iff {s : AgentStore} (hs : Consistent s) (cid userID : Int)
    (expected : Option AgentStatus) (new : AgentStatus) (nowMs : Int) (extra : List String) :
    Consistent (transition s cid userID expected new nowMs extra).2 ↔
      TransitionKeeps s cid userID expected new extra := by
  rcases transition_cases s cid userID expected new nowMs extra with ⟨hno, hsame⟩ | ⟨hmove, hmoves⟩
  · rw [hsame]
    exact iff_of_true hs (.inl hno)
  · rw [hs.moves_iff hmoves, keepsStatus_cons _ _ (by simp), namesCampaign_cons _ _ (by simp)]
    constructor
    · exact fun h => .inr h
    · rintro (h | h)
      · exact absurd h hmove
      · exact h

/-- The picked agent is in the READY set of the campaign and so, in a consistent store, in no
other set. -/
theorem Consistent.pickForCall {s : AgentStore} (hs : Consistent s) (hk : MembersKnown s)
    (cid : Int) (callUUID : String) (nowMs : Int) :
    Consistent (pickForCall s cid callUUID nowMs).2 := by
  rcases pickForCall_cases s cid callUUID nowMs with hsame | ⟨userID, hready, hmoves⟩
  · rw [hsame]
    exact hs
  · obtain ⟨c, st, -, hc, hmem⟩ := hs userID (hk cid .ready userID hready)
    obtain ⟨rfl, rfl⟩ := (hmem cid .ready).mp hready
    refine (hs.moves_iff hmoves).mpr ⟨?_, ?_, fun c' st' hst' => ?_⟩
    · simp [KeepsStatus, hset]
    · simpa [NamesCampaign, hset] using hc
    · obtain ⟨hc', hst⟩ := (hmem c' st').mp hst'
      exact ⟨hc', .inl hst⟩

theorem Consistent.step_iff {s : AgentStore} (hs : Consistent s) (hk : MembersKnown s)
    (a : AgentAction) : Consistent (step s a) ↔ StepKeepsIndex s a := by
  cases a with
  | setState cid userID status nowMs extra =>
    rw [step, setState_eq]
    exact hs.transition_iff cid userID none status nowMs extra
  | transition cid userID expected new nowMs extra =>
    exact hs.transition_iff cid userID expected new nowMs extra
  | pickForCall cid callUUID nowMs =>
    exact iff_of_true (hs.pickForCall hk cid callUUID nowMs) trivial

theorem MembersKnown.transition {s : AgentStore} (hk : MembersKnown s) (cid userID : Int)
    (expected : Option AgentStatus) (new : AgentStatus) (nowMs : Int) (extra : List String) :
    MembersKnown (transition s cid userID expected new nowMs extra).2 := by
  rcases transition_cases s cid userID expected new nowMs extra with ⟨-, hsame⟩ | ⟨-, hmoves⟩
  · rw [hsame]
    exact hk
  · exact hk.moves hmoves

theorem MembersKnown.step {s : AgentStore} (hk : MembersKnown s) (a : AgentAction) :
    MembersKnown (step s a) := by
  cases a with
  | setState cid userID status nowMs extra =>
    rw [Agents.step, setState_eq]
    exact hk.transition cid userID none status nowMs extra
  | transition cid userID expected new nowMs extra =>
    exact hk.transition cid userID expected new nowMs extra
  | pickForCall cid callUUID nowMs =>
    rcases pickForCall_cases s cid callUUID nowMs with hsame | ⟨userID, -, hmoves⟩
    · rw [Agents.step, hsame]
      exact hk
    · exact hk.moves hmoves

/-- From the empty store, the index is consistent after every step of a run
exactly when every move names the campaign that its agent is indexed under,
finds it at most under the two statuses it names, and no extra pair gives the
HASH another status or campaign. -/
theorem index_consistent_along_run (l : List AgentAction) :
    Always step Consistent AgentStore.empty l ↔ EachStep step StepKeepsIndex AgentStore.empty l := by
  have hconsistent : Consistent AgentStore.empty := by
    rintro u ⟨f, v, hv⟩
    cases hv
  have hknown : MembersKnown AgentStore.empty := by
    intro c st u hu
    simp [AgentStore.empty] at hu
  exact always_iff_eachStep (fun _ a hk _ _ => hk.step a) (fun _ a hk hs => hs.step_iff hk a) l
    hknown hconsistent

/-- An unconditional pause leaves the agent READY in the index. A login under another
campaign leaves it READY under the first one, which then takes it for a call of its own
while it is READY under the second. -/
theorem setState_leaves_stale_member :
    ¬ Always step Consistent AgentStore.empty
        [.setState 42 7 .ready 1000 ["campaign_id", "42"], .setState 42 7 .paused 2000 []] ∧
      ¬ Always step Consistent AgentStore.empty
        [.setState 42 7 .ready 1000 ["campaign_id", "42"],
          .setState 43 7 .ready 2000 ["campaign_id", "43"], .pickForCall 42 "call" 3000] := by
  constructor
  · intro h
    obtain ⟨c, st, hst, -, hmem⟩ := h.last 7 ⟨"status", "PAUSED", by decide⟩
    have hready := ((hmem 42 .ready).mp (by decide)).2
    have hpaused := ((hmem 42 .paused).mp (by decide)).2
    rw [← hready] at hpaused
    exact absurd hpaused (by decide)
  · intro h
    obtain ⟨c, st, hst, -, hmem⟩ := h.last 7 ⟨"status", "RESERVED", by decide⟩
    have hready := ((hmem 43 .ready).mp (by decide)).2
    rw [← hready] at hst
    exact absurd hst (by decide)

end Agents

end Vici2
