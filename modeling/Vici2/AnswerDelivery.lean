import Vici2.AnswerHandler
import Vici2.Runs

/-! Delivery of answered calls. A predictive call of a running campaign reaches
its own campaign's handler once and only once in every run exactly when no two
handlers share a pod and none share a campaign. -/

namespace Vici2

namespace Answer

def timesHandled (w : AnswerWorld) (i : Nat) : Nat :=
  (w.handled.filter fun e => e.2 = i).length

/-- For every predictive call of a running campaign: it is handled at most
once, and once every group that could bring it to its campaign's handler has
acknowledged it, such a handler has handled it. -/
def HandledOnce (d : Deployment) (w : AnswerWorld) : Prop :=
  ∀ i ev, w.stream[i]? = some ev → ev.mode = Originate.OriginateMode.predictive.text →
    (∃ h ∈ d.handlers, h.campaignID = ev.campaignID) →
    timesHandled w i ≤ 1 ∧
      ((∀ h ∈ d.handlers, h.campaignID = ev.campaignID → i ∈ (w.groups h.groupName).acked) →
        ∃ h ∈ d.handlers, h.campaignID = ev.campaignID ∧ (h, i) ∈ w.handled)

def Separate (d : Deployment) : Prop :=
  ∀ h ∈ d.handlers, ∀ h' ∈ d.handlers, h ≠ h' →
    h.podID ≠ h'.podID ∧ h.campaignID ≠ h'.campaignID

theorem groupName_injective {h h' : AnswerHandler} (he : h.groupName = h'.groupName) :
    h.podID = h'.podID := by
  have hl := congrArg String.toList he
  simp only [AnswerHandler.groupName, String.toList_append, List.append_right_inj] at hl
  exact String.toList_injective hl

structure Inv (d : Deployment) (w : AnswerWorld) : Prop where
  batch_handler : ∀ h i, i ∈ w.batch h → h ∈ d.handlers
  batch_nodup : ∀ h, (w.batch h).Nodup
  batch_lt : ∀ h i, i ∈ w.batch h → i < (w.groups h.groupName).cursor
  batch_unacked : ∀ h i, i ∈ w.batch h → i ∉ (w.groups h.groupName).acked
  acked_lt : ∀ g i, i ∈ (w.groups g).acked → i < (w.groups g).cursor
  acked_handled : ∀ h ∈ d.handlers, ∀ i ev, i ∈ (w.groups h.groupName).acked →
    w.stream[i]? = some ev → h.Owns ev → (h, i) ∈ w.handled
  cursor_le : ∀ g, (w.groups g).cursor ≤ w.stream.length
  handled_own : ∀ h i, (h, i) ∈ w.handled →
    h ∈ d.handlers ∧ ∃ ev, w.stream[i]? = some ev ∧ h.Owns ev
  handled_place : ∀ h i, (h, i) ∈ w.handled →
    i ∈ (w.groups h.groupName).acked ∨ (w.headHandled h = true ∧ (w.batch h).head? = some i)
  head : ∀ h, w.headHandled h = true → ∃ i rest, w.batch h = i :: rest ∧ (h, i) ∈ w.handled
  handled_nodup : w.handled.Nodup

theorem inv_init (d : Deployment) (agents : Agents.AgentStore) : Inv d (.init agents) := by
  constructor <;> simp [AnswerWorld.init]

theorem Separate.group_eq {d : Deployment} (hd : Separate d) {h h' : AnswerHandler}
    (hh : h ∈ d.handlers) (hh' : h' ∈ d.handlers) (he : h.groupName = h'.groupName) : h = h' := by
  by_contra hne
  exact (hd h hh h' hh' hne).1 (groupName_injective he)

theorem length_le_one_of_all_eq {α : Type*} {l : List α} (hn : l.Nodup)
    (h : ∀ a ∈ l, ∀ b ∈ l, a = b) : l.length ≤ 1 := by
  match l, hn, h with
  | [], _, _ => simp
  | [_], _, _ => simp
  | a :: b :: l, hn, h =>
    have hab := h a (by simp) b (by simp)
    simp [hab] at hn

theorem Inv.handledOnce {d : Deployment} (hd : Separate d) {w : AnswerWorld} (hw : Inv d w) :
    HandledOnce d w := by
  intro i ev hev hmode hrun
  constructor
  · refine length_le_one_of_all_eq (hw.handled_nodup.filter _) ?_
    rintro ⟨h, j⟩ he ⟨h', j'⟩ he'
    obtain ⟨hmem, hj⟩ := List.mem_filter.mp he
    obtain ⟨hmem', hj'⟩ := List.mem_filter.mp he'
    obtain rfl : j = i := of_decide_eq_true hj
    obtain rfl : j' = j := of_decide_eq_true hj'
    obtain ⟨hin, e, hstream, hown⟩ := hw.handled_own h _ hmem
    obtain ⟨hin', e', hstream', hown'⟩ := hw.handled_own h' _ hmem'
    rw [hstream] at hstream'
    obtain rfl := Option.some.inj hstream'
    by_contra hne
    have hhne : h ≠ h' := fun hhe => hne (by rw [hhe])
    exact (hd h hin h' hin' hhne).2 (hown.1.symm.trans hown'.1)
  · intro hack
    obtain ⟨h, hin, hc⟩ := hrun
    exact ⟨h, hin, hc, hw.acked_handled h hin i ev (hack h hin hc) hev ⟨hc.symm, hmode⟩⟩

theorem Inv.emit {d : Deployment} {w : AnswerWorld} (hw : Inv d w) (ev : AnsweredEvent) :
    Inv d (step d w (.emit ev)) where
  batch_handler := hw.batch_handler
  batch_nodup := hw.batch_nodup
  batch_lt := hw.batch_lt
  batch_unacked := hw.batch_unacked
  acked_lt := hw.acked_lt
  acked_handled h hin i e hack hev hown := by
    have hlt : i < w.stream.length :=
      lt_of_lt_of_le (hw.acked_lt _ i hack) (hw.cursor_le h.groupName)
    have hev' : w.stream[i]? = some e := by
      simpa [step, List.getElem?_append_left hlt] using hev
    exact hw.acked_handled h hin i e hack hev' hown
  cursor_le g := by
    have hle := hw.cursor_le g
    simp only [step, List.length_append, List.length_singleton]
    omega
  handled_own h i hmem := by
    obtain ⟨hin, e, hev, hown⟩ := hw.handled_own h i hmem
    obtain ⟨hlt, -⟩ := List.getElem?_eq_some_iff.mp hev
    refine ⟨hin, e, ?_, hown⟩
    simpa [step, List.getElem?_append_left hlt] using hev
  handled_place := hw.handled_place
  head := hw.head
  handled_nodup := hw.handled_nodup

theorem readBatch_cursor (w : AnswerWorld) (h : AnswerHandler) (g : String) :
    (w.groups g).cursor ≤ ((w.readBatch h).groups g).cursor := by
  by_cases hg : g = h.groupName
  · subst hg
    simp [AnswerWorld.readBatch]
  · simp [AnswerWorld.readBatch, hg]

theorem readBatch_acked (w : AnswerWorld) (h : AnswerHandler) (g : String) :
    ((w.readBatch h).groups g).acked = (w.groups g).acked := by
  by_cases hg : g = h.groupName
  · subst hg
    simp [AnswerWorld.readBatch]
  · simp [AnswerWorld.readBatch, hg]

theorem readBatch_batch_of_ne (w : AnswerWorld) {h k : AnswerHandler} (hk : k ≠ h) :
    (w.readBatch h).batch k = w.batch k := by
  simp [AnswerWorld.readBatch, hk]

theorem mem_readBatch {w : AnswerWorld} {h : AnswerHandler} {i : Nat}
    (hi : i ∈ (w.readBatch h).batch h) :
    (w.groups h.groupName).cursor ≤ i ∧ i < ((w.readBatch h).groups h.groupName).cursor := by
  simp only [AnswerWorld.readBatch, Function.update_self, List.mem_range'_1] at hi ⊢
  exact hi

theorem Inv.readBatch {d : Deployment} {w : AnswerWorld} (hw : Inv d w) {h : AnswerHandler}
    (hin : h ∈ d.handlers) (hidle : w.batch h = []) : Inv d (w.readBatch h) where
  batch_handler k i hi := by
    by_cases hk : k = h
    · rw [hk]
      exact hin
    · rw [readBatch_batch_of_ne w hk] at hi
      exact hw.batch_handler k i hi
  batch_nodup k := by
    by_cases hk : k = h
    · subst hk
      simp [AnswerWorld.readBatch, List.nodup_range']
    · rw [readBatch_batch_of_ne w hk]
      exact hw.batch_nodup k
  batch_lt k i hi := by
    by_cases hk : k = h
    · subst hk
      exact (mem_readBatch hi).2
    · rw [readBatch_batch_of_ne w hk] at hi
      exact lt_of_lt_of_le (hw.batch_lt k i hi) (readBatch_cursor w h k.groupName)
  batch_unacked k i hi := by
    rw [readBatch_acked]
    by_cases hk : k = h
    · subst hk
      intro hack
      have hlt := hw.acked_lt _ i hack
      have hge := (mem_readBatch hi).1
      omega
    · rw [readBatch_batch_of_ne w hk] at hi
      exact hw.batch_unacked k i hi
  acked_lt g i hi := by
    rw [readBatch_acked] at hi
    exact lt_of_lt_of_le (hw.acked_lt g i hi) (readBatch_cursor w h g)
  acked_handled k hk i ev hack hev hown := by
    rw [readBatch_acked] at hack
    exact hw.acked_handled k hk i ev hack hev hown
  cursor_le g := by
    have hle := hw.cursor_le g
    by_cases hg : g = h.groupName
    · subst hg
      simp only [AnswerWorld.readBatch, Function.update_self]
      omega
    · simpa [AnswerWorld.readBatch, hg] using hle
  handled_own := hw.handled_own
  handled_place k i hmem := by
    rw [readBatch_acked]
    rcases hw.handled_place k i hmem with hack | ⟨hhead, hb⟩
    · exact .inl hack
    · have hk : k ≠ h := by
        rintro rfl
        simp [hidle] at hb
      rw [readBatch_batch_of_ne w hk]
      exact .inr ⟨hhead, hb⟩
  head k hhead := by
    obtain ⟨i, rest, hb, hmem⟩ := hw.head k hhead
    have hk : k ≠ h := by
      rintro rfl
      simp [hidle] at hb
    rw [readBatch_batch_of_ne w hk]
    exact ⟨i, rest, hb, hmem⟩
  handled_nodup := hw.handled_nodup

theorem Inv.handleHead {d : Deployment} {w : AnswerWorld} (hw : Inv d w) {h : AnswerHandler}
    {i : Nat} {rest : List Nat} {ev : AnsweredEvent} (hb : w.batch h = i :: rest)
    (hev : w.stream[i]? = some ev) (hown : h.Owns ev) (hfresh : w.headHandled h = false)
    (nowMs : Int) (transferOk : Bool) : Inv d (w.handleHead h i ev nowMs transferOk) where
  batch_handler := hw.batch_handler
  batch_nodup := hw.batch_nodup
  batch_lt := hw.batch_lt
  batch_unacked := hw.batch_unacked
  acked_lt := hw.acked_lt
  acked_handled k hk j e hack he hownk :=
    List.mem_cons_of_mem _ (hw.acked_handled k hk j e hack he hownk)
  cursor_le := hw.cursor_le
  handled_own k j hmem := by
    rcases List.mem_cons.mp hmem with he | hmem
    · cases he
      exact ⟨hw.batch_handler h i (by simp [hb]), ev, hev, hown⟩
    · exact hw.handled_own k j hmem
  handled_place k j hmem := by
    rcases List.mem_cons.mp hmem with he | hmem
    · cases he
      exact .inr ⟨by simp [AnswerWorld.handleHead], by simp [AnswerWorld.handleHead, hb]⟩
    · rcases hw.handled_place k j hmem with hack | ⟨hhead, hj⟩
      · exact .inl hack
      · have hk : k ≠ h := by
          rintro rfl
          simp [hfresh] at hhead
        exact .inr ⟨by simp [AnswerWorld.handleHead, hk, hhead], hj⟩
  head k hhead := by
    by_cases hk : k = h
    · subst hk
      exact ⟨i, rest, hb, List.mem_cons_self⟩
    · have hhead' : w.headHandled k = true := by
        simpa [AnswerWorld.handleHead, hk] using hhead
      obtain ⟨j, rest', hb', hmem⟩ := hw.head k hhead'
      exact ⟨j, rest', hb', List.mem_cons_of_mem _ hmem⟩
  handled_nodup := by
    refine List.nodup_cons.mpr ⟨fun hmem => ?_, hw.handled_nodup⟩
    rcases hw.handled_place h i hmem with hack | ⟨hhead, -⟩
    · exact hw.batch_unacked h i (by simp [hb]) hack
    · simp [hfresh] at hhead

theorem ackHead_cursor (w : AnswerWorld) (h : AnswerHandler) (i : Nat) (rest : List Nat)
    (g : String) : ((w.ackHead h i rest).groups g).cursor = (w.groups g).cursor := by
  by_cases hg : g = h.groupName
  · subst hg
    simp [AnswerWorld.ackHead]
  · simp [AnswerWorld.ackHead, hg]

theorem mem_ackHead_acked {w : AnswerWorld} {h : AnswerHandler} {i j : Nat} {rest : List Nat}
    {g : String} : j ∈ ((w.ackHead h i rest).groups g).acked ↔
      (g = h.groupName ∧ j = i) ∨ j ∈ (w.groups g).acked := by
  by_cases hg : g = h.groupName
  · subst hg
    simp [AnswerWorld.ackHead]
  · simp [AnswerWorld.ackHead, hg]

theorem Inv.mem_ackHead {d : Deployment} {w : AnswerWorld} (hw : Inv d w) {h k : AnswerHandler}
    {i j : Nat} {rest : List Nat} (hb : w.batch h = i :: rest)
    (hj : j ∈ (w.ackHead h i rest).batch k) : j ∈ w.batch k ∧ (k = h → j ≠ i) := by
  have hnodup := hw.batch_nodup h
  rw [hb, List.nodup_cons] at hnodup
  by_cases hk : k = h
  · subst hk
    have hj' : j ∈ rest := by simpa [AnswerWorld.ackHead] using hj
    exact ⟨by simp [hb, hj'], fun _ hji => hnodup.1 (hji ▸ hj')⟩
  · have hj' : j ∈ w.batch k := by simpa [AnswerWorld.ackHead, hk] using hj
    exact ⟨hj', fun he => absurd he hk⟩

theorem Inv.ackHead {d : Deployment} (hd : Separate d) {w : AnswerWorld} (hw : Inv d w)
    {h : AnswerHandler} {i : Nat} {rest : List Nat} {ev : AnsweredEvent}
    (hb : w.batch h = i :: rest) (hev : w.stream[i]? = some ev)
    (hdone : h.Owns ev → w.headHandled h = true) : Inv d (w.ackHead h i rest) := by
  have hin : h ∈ d.handlers := hw.batch_handler h i (by simp [hb])
  exact
    { batch_handler := fun k j hj => hw.batch_handler k j (hw.mem_ackHead hb hj).1
      batch_nodup := by
        intro k
        have hnodup := hw.batch_nodup k
        by_cases hk : k = h
        · subst hk
          rw [hb, List.nodup_cons] at hnodup
          simpa [AnswerWorld.ackHead] using hnodup.2
        · simpa [AnswerWorld.ackHead, hk] using hnodup
      batch_lt := by
        intro k j hj
        rw [ackHead_cursor]
        exact hw.batch_lt k j (hw.mem_ackHead hb hj).1
      batch_unacked := by
        intro k j hj hack
        obtain ⟨hjk, hne⟩ := hw.mem_ackHead hb hj
        rcases mem_ackHead_acked.mp hack with ⟨hg, hji⟩ | hack'
        · exact hne (hd.group_eq (hw.batch_handler k j hjk) hin hg) hji
        · exact hw.batch_unacked k j hjk hack'
      acked_lt := by
        intro g j hj
        rw [ackHead_cursor]
        rcases mem_ackHead_acked.mp hj with ⟨rfl, rfl⟩ | hj'
        · exact hw.batch_lt h j (by simp [hb])
        · exact hw.acked_lt g j hj'
      acked_handled := by
        intro k hk j e hack he hown
        rcases mem_ackHead_acked.mp hack with ⟨hg, rfl⟩ | hack'
        · obtain rfl := hd.group_eq hk hin hg
          have he' : w.stream[j]? = some e := he
          rw [hev] at he'
          obtain rfl := Option.some.inj he'
          obtain ⟨j', rest', hb', hmem⟩ := hw.head k (hdone hown)
          rw [hb] at hb'
          obtain ⟨rfl, rfl⟩ := List.cons.inj hb'
          exact hmem
        · exact hw.acked_handled k hk j e hack' he hown
      cursor_le := by
        intro g
        rw [ackHead_cursor]
        exact hw.cursor_le g
      handled_own := hw.handled_own
      handled_place := by
        intro k j hmem
        rcases hw.handled_place k j hmem with hack | ⟨hhead, hj⟩
        · exact .inl (mem_ackHead_acked.mpr (.inr hack))
        · by_cases hk : k = h
          · subst hk
            have hji : j = i := by simpa [hb, eq_comm] using hj
            exact .inl (mem_ackHead_acked.mpr (.inl ⟨rfl, hji⟩))
          · exact .inr ⟨by simp [AnswerWorld.ackHead, hk, hhead],
              by simpa [AnswerWorld.ackHead, hk] using hj⟩
      head := by
        intro k hhead
        by_cases hk : k = h
        · subst hk
          simp [AnswerWorld.ackHead] at hhead
        · have hhead' : w.headHandled k = true := by
            simpa [AnswerWorld.ackHead, hk] using hhead
          obtain ⟨j, rest', hb', hmem⟩ := hw.head k hhead'
          exact ⟨j, rest', by simpa [AnswerWorld.ackHead, hk] using hb', hmem⟩
      handled_nodup := hw.handled_nodup }

theorem Inv.step {d : Deployment} (hd : Separate d) {w : AnswerWorld} (hw : Inv d w)
    (a : AnswerAction) : Inv d (step d w a) := by
  cases a with
  | emit ev => exact hw.emit ev
  | read h =>
    simp only [Answer.step]
    by_cases hr : h ∈ d.handlers ∧ w.batch h = []
    · rw [if_pos hr]
      exact hw.readBatch hr.1 hr.2
    · rw [if_neg hr]
      exact hw
  | handle h nowMs transferOk =>
    simp only [Answer.step]
    rcases hb : w.batch h with _ | ⟨i, rest⟩
    · exact hw
    · rcases hev : w.stream[i]? with _ | ev
      · simpa [hev] using hw
      · by_cases ho : h.Owns ev ∧ w.headHandled h = false
        · simp only [hev, if_pos ho]
          exact hw.handleHead hb hev ho.1 ho.2 nowMs transferOk
        · simpa only [hev, if_neg ho] using hw
  | ack h =>
    simp only [Answer.step]
    rcases hb : w.batch h with _ | ⟨i, rest⟩
    · exact hw
    · rcases hev : w.stream[i]? with _ | ev
      · simpa [hev] using hw
      · by_cases ho : h.Owns ev ∧ w.headHandled h = false
        · simpa only [hev, if_pos ho] using hw
        · simp only [hev, if_neg ho]
          refine hw.ackHead hd hb hev fun hown => ?_
          by_contra hf
          exact ho ⟨hown, by simpa using hf⟩

def answeredOn (campaignID : Int) : AnsweredEvent :=
  ⟨"call-1", campaignID, 1, 5, Originate.OriginateMode.predictive.text, 1000, "fs-1"⟩

theorem shared_campaign_handled_twice {d : Deployment} {h h' : AnswerHandler}
    (hin : h ∈ d.handlers) (hin' : h' ∈ d.handlers) (hc : h.campaignID = h'.campaignID)
    (hp : h.podID ≠ h'.podID) (agents : Agents.AgentStore) :
    ¬ Always (step d) (HandledOnce d) (.init agents)
      [.emit (answeredOn h.campaignID), .read h, .handle h 0 true, .read h', .handle h' 0 true] := by
  intro hall
  have hne : h' ≠ h := fun he => hp (by rw [he])
  have hg : h'.groupName ≠ h.groupName := fun he => hp (groupName_injective he).symm
  have hown : h.Owns (answeredOn h.campaignID) := ⟨rfl, rfl⟩
  have hown' : h'.Owns (answeredOn h.campaignID) := ⟨hc, rfl⟩
  have hlast := hall.last
  simp only [List.foldl_cons, List.foldl_nil] at hlast
  have honce := (hlast 0 (answeredOn h.campaignID) (by
    simp [step, AnswerWorld.init, AnswerWorld.readBatch, AnswerWorld.handleHead, batchCount, hin,
      hin', hne, hg, hown, hown']) rfl ⟨h, hin, rfl⟩).1
  simp [step, AnswerWorld.init, AnswerWorld.readBatch, AnswerWorld.handleHead, batchCount, hin,
    hin', hne, hg, hown, hown', timesHandled] at honce

/-- Two campaigns of one pod share a group: the other one's handler may get the
call, and acknowledges it unhandled. -/
theorem shared_pod_loses_call {d : Deployment} {h h' : AnswerHandler}
    (hin : h ∈ d.handlers) (hin' : h' ∈ d.handlers) (hp : h.podID = h'.podID)
    (hc : h.campaignID ≠ h'.campaignID)
    (honly : ∀ k ∈ d.handlers, k.campaignID = h.campaignID → k = h) (agents : Agents.AgentStore) :
    ¬ Always (step d) (HandledOnce d) (.init agents)
      [.emit (answeredOn h.campaignID), .read h', .ack h'] := by
  intro hall
  have hg : h.groupName = h'.groupName := by rw [AnswerHandler.groupName, hp]; rfl
  have hforeign : ¬ h'.Owns (answeredOn h.campaignID) := fun ho => hc ho.1
  have hlast := hall.last
  simp only [List.foldl_cons, List.foldl_nil] at hlast
  have hnone := (hlast 0 (answeredOn h.campaignID) (by
    simp [step, AnswerWorld.init, AnswerWorld.readBatch, AnswerWorld.ackHead, batchCount, hin',
      hforeign]) rfl ⟨h, hin, rfl⟩).2 (by
    intro k hk hkc
    obtain rfl := honly k hk hkc
    simp [step, AnswerWorld.init, AnswerWorld.readBatch, AnswerWorld.ackHead, batchCount, hin',
      hforeign, hg])
  obtain ⟨k, -, -, hmem⟩ := hnone
  simp [step, AnswerWorld.init, AnswerWorld.readBatch, AnswerWorld.ackHead, batchCount, hin',
    hforeign] at hmem

/-- Every predictive call of a running campaign is handled exactly once, in
every state of every run, exactly when no two handlers share a pod or a
campaign. -/
theorem answered_calls_handled_once_iff (d : Deployment) :
    (∀ agents l, Always (step d) (HandledOnce d) (.init agents) l) ↔ Separate d := by
  constructor
  · intro hall h hin h' hin' hne
    have hcampaign : ∀ k ∈ d.handlers, ∀ k' ∈ d.handlers, k ≠ k' →
        k.campaignID ≠ k'.campaignID := by
      intro k hk k' hk' hkne hc
      have hpod : k.podID ≠ k'.podID := fun hp => hkne (d.one_per_campaign k hk k' hk' hp hc)
      exact shared_campaign_handled_twice hk hk' hc hpod .empty (hall _ _)
    refine ⟨fun hp => ?_, hcampaign h hin h' hin' hne⟩
    refine shared_pod_loses_call hin hin' hp (hcampaign h hin h' hin' hne) ?_ .empty (hall _ _)
    intro k hk hkc
    by_contra hkh
    exact hcampaign k hk h hin hkh hkc
  · intro hd agents l
    have hinv := always_of_step (I := Inv d) (fun w a hw => hw.step hd a) l (inv_init d agents)
    exact hinv.mono fun _ hw => hw.handledOnce hd

def twoCampaignPod : Deployment where
  handlers := {⟨42, 1, "pod-a"⟩, ⟨43, 1, "pod-a"⟩}
  one_per_campaign := by decide

theorem two_campaign_pod_loses_call :
    ¬ ∀ agents l, Always (step twoCampaignPod) (HandledOnce twoCampaignPod) (.init agents) l := by
  intro hall
  have hin : (⟨42, 1, "pod-a"⟩ : AnswerHandler) ∈ twoCampaignPod.handlers := by decide
  have hin' : (⟨43, 1, "pod-a"⟩ : AnswerHandler) ∈ twoCampaignPod.handlers := by decide
  exact shared_pod_loses_call hin hin' rfl (by decide) (by decide) .empty (hall _ _)

end Answer

end Vici2
