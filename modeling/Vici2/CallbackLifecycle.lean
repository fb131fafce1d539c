import Vici2.Callbacks

/-! The statuses that a callback takes while requests and the worker overlap. A
snooze, a cancellation and the outcome of an unanswered call check the status
they have read and then write without looking at it again. -/

namespace Vici2

namespace Callbacks

/-- The tables, and the operations that have read and not yet written. -/
structure Overlap where
  db : Db
  inFlight : List Write

inductive LifecycleAction
  | createRead (actor : AuthContext) (body : CreateBody) (now : Int)
  | snoozeRead (actor : AuthContext) (id callbackAt now : Int)
  | cancelRead (actor : AuthContext) (id : Int)
  | noAnswerRead (tenantId id : Int) (policy : NoAnswerPolicy)
  | dueRead (tenantId id dueBy : Int)
  | write (i : Nat)
  | fail (i : Nat)
  | bulkCancel (tenantId : Int) (ids : List Int)

def Overlap.start (s : Overlap) (w : Option Write) : Overlap :=
  { s with inFlight := s.inFlight ++ w.toList }

def lifecycleStep (s : Overlap) : LifecycleAction → Overlap
  | .createRead actor body now => s.start (readCreate s.db actor body now).toOption
  | .snoozeRead actor id callbackAt now => s.start (readSnooze s.db actor id callbackAt now).toOption
  | .cancelRead actor id => s.start (readCancel s.db actor id).toOption
  | .noAnswerRead tenantId id policy => s.start (readNoAnswer s.db tenantId id policy)
  | .dueRead tenantId id dueBy => s.start (readDue s.db tenantId id dueBy)
  | .write i =>
    match s.inFlight[i]? with
    | none => s
    | some w => ⟨w.apply s.db, s.inFlight.eraseIdx i⟩
  | .fail i => { s with inFlight := s.inFlight.eraseIdx i }
  | .bulkCancel tenantId ids => { s with db := bulkCancel s.db tenantId ids }

def Db.statusOf (db : Db) (id : Int) : Option CallbackStatus := (db.find id).map Callback.status

/-- A row keeps its status or takes one that the table allows; a new row is PENDING. -/
def LegalMove : Option CallbackStatus → Option CallbackStatus → Prop
  | none, new => new = none ∨ new = some .pending
  | some old, new => new = some old ∨ ∃ st, new = some st ∧ guardTransition old st = .ok ()

def OnTable (s : Overlap) (a : LifecycleAction) : Prop :=
  ∀ id, LegalMove (s.db.statusOf id) ((lifecycleStep s a).db.statusOf id)

/-- A snooze or a reschedule is written while the callback is still open, a
cancellation while it is not DONE, and a termination while it is neither PENDING
again nor DEAD. -/
def Write.Timely (db : Db) : Write → Prop
  | .snooze id _ => db.statusOf id ≠ some .done ∧ db.statusOf id ≠ some .dead
  | .reschedule id _ _ => db.statusOf id ≠ some .done ∧ db.statusOf id ≠ some .dead
  | .cancel _ id _ => db.statusOf id ≠ some .done
  | .terminate id _ => db.statusOf id ≠ some .pending ∧ db.statusOf id ≠ some .dead
  | .create .. => True
  | .promote .. => True

instance (db : Db) : (w : Write) → Decidable (w.Timely db)
  | .snooze _ _ => inferInstanceAs (Decidable (_ ∧ _))
  | .reschedule _ _ _ => inferInstanceAs (Decidable (_ ∧ _))
  | .cancel _ _ _ => inferInstanceAs (Decidable (_ ≠ _))
  | .terminate _ _ => inferInstanceAs (Decidable (_ ∧ _))
  | .create .. => inferInstanceAs (Decidable True)
  | .promote .. => inferInstanceAs (Decidable True)

def WritesTimely (s : Overlap) : LifecycleAction → Prop
  | .write i => ∀ w ∈ s.inFlight[i]?, w.Timely s.db
  | _ => True

instance (s : Overlap) : (a : LifecycleAction) → Decidable (WritesTimely s a)
  | .write i => inferInstanceAs (Decidable (∀ w ∈ s.inFlight[i]?, w.Timely s.db))
  | .createRead .. => inferInstanceAs (Decidable True)
  | .snoozeRead .. => inferInstanceAs (Decidable True)
  | .cancelRead .. => inferInstanceAs (Decidable True)
  | .noAnswerRead .. => inferInstanceAs (Decidable True)
  | .dueRead .. => inferInstanceAs (Decidable True)
  | .fail _ => inferInstanceAs (Decidable True)
  | .bulkCancel .. => inferInstanceAs (Decidable True)

theorem LegalMove.refl (st : Option CallbackStatus) : LegalMove st st := by
  cases st with
  | none => exact Or.inl rfl
  | some st => exact Or.inl rfl

theorem legalMove_some {old new : CallbackStatus} :
    LegalMove (some old) (some new) ↔ new = old ∨ (old, new) ∈ legalTransitions := by
  cases old <;> cases new <;> simp [LegalMove, guardTransition, legalTransitions]

@[simp] theorem statusOf_setLead (db : Db) (leadId : Int) (f : Lead → Lead) (id : Int) :
    (db.setLead leadId f).statusOf id = db.statusOf id := rfl

@[simp] theorem statusOf_setLeadStatus (db : Db) (leadId : Int) (status : String) (id : Int) :
    (db.setLeadStatus leadId status).statusOf id = db.statusOf id := rfl

theorem find_updateCallbacks (db : Db) (p : Callback → Prop) [DecidablePred p]
    (f : Callback → Callback) (hf : ∀ c, (f c).id = c.id) (id : Int) :
    (db.updateCallbacks p f).find id = (db.find id).map fun c => if p c then f c else c := by
  unfold Db.find Db.updateCallbacks
  rw [List.find?_map]
  congr 2
  funext c
  simp only [Function.comp]
  split
  · rw [hf]
  · rfl

/-- An update of some rows, seen at one row. -/
theorem statusOf_updateCallbacks (db : Db) (p : Callback → Prop) [DecidablePred p]
    (f : Callback → Callback) (hf : ∀ c, (f c).id = c.id) (id : Int) :
    (db.updateCallbacks p f).statusOf id =
      (db.find id).map fun c => if p c then (f c).status else c.status := by
  unfold Db.statusOf
  rw [find_updateCallbacks db p f hf, Option.map_map]
  congr 1
  funext c
  simp only [Function.comp]
  split <;> rfl

theorem find_id {db : Db} {id : Int} {c : Callback} (h : db.find id = some c) : c.id = id := by
  have hc := List.find?_some h
  exact of_decide_eq_true hc

/-- An unconditional write of a status to a row by its id. -/
theorem statusOf_write (db : Db) (id : Int) (f : Callback → Callback) (hf : ∀ c, (f c).id = c.id)
    {st : CallbackStatus} (hst : ∀ c, (f c).status = st) (i : Int) :
    (db.updateCallbacks (fun c => c.id = id) f).statusOf i =
      if i = id then (db.statusOf i).map fun _ => st else db.statusOf i := by
  rw [statusOf_updateCallbacks db _ f hf]
  unfold Db.statusOf
  cases hfind : db.find i with
  | none => simp
  | some c =>
    have hid := find_id hfind
    by_cases hi : i = id
    · simp [hid, hi, hst]
    · simp [hid, hi]

/-- Such a write stays on the table exactly when the row's status allows it. -/
theorem write_onTable_iff (db : Db) (id : Int) (f : Callback → Callback) (hf : ∀ c, (f c).id = c.id)
    {st : CallbackStatus} (hst : ∀ c, (f c).status = st) :
    (∀ i, LegalMove (db.statusOf i) ((db.updateCallbacks (fun c => c.id = id) f).statusOf i)) ↔
      ∀ old, db.statusOf id = some old → st = old ∨ (old, st) ∈ legalTransitions := by
  constructor
  · intro h old hold
    have hmove := h id
    rw [statusOf_write db id f hf hst, if_pos rfl, hold, Option.map_some, legalMove_some] at hmove
    exact hmove
  · intro h i
    rw [statusOf_write db id f hf hst]
    split
    · next hi =>
      subst hi
      cases hold : db.statusOf i with
      | none => exact LegalMove.refl none
      | some old =>
        rw [Option.map_some, legalMove_some]
        exact h old hold
    · exact LegalMove.refl _

theorem statusOf_applyCreate (db : Db) (tenantId leadId : Int) (userId : Option Int)
    (callbackAt : Int) (leadStatus : String) (i : Int) :
    LegalMove (db.statusOf i)
      ((applyCreate db tenantId leadId userId callbackAt leadStatus).statusOf i) := by
  have hinsert : ∀ cb : Callback, cb.status = .pending →
      LegalMove (db.statusOf i)
        (Db.statusOf { db with callbacks := db.callbacks ++ [cb], nextId := db.nextId + 1 } i) := by
    intro cb hcb
    unfold Db.statusOf Db.find
    rw [List.find?_append]
    cases hfind : db.callbacks.find? fun c => c.id = i with
    | some c => exact LegalMove.refl _
    | none =>
      rw [Option.none_or, List.find?_singleton]
      split
      · exact Or.inr (congrArg some hcb)
      · exact Or.inl rfl
  unfold applyCreate
  simp only
  split
  · exact hinsert _ rfl
  · exact hinsert _ rfl

/-- An update whose guard is read with the row writes legal statuses only. -/
theorem legalMove_updateCallbacks (db : Db) (p : Callback → Prop) [DecidablePred p]
    (f : Callback → Callback) (hf : ∀ c, (f c).id = c.id) (st : CallbackStatus)
    (hst : ∀ c, (f c).status = st) (hlegal : ∀ c, p c → (c.status, st) ∈ legalTransitions)
    (i : Int) :
    LegalMove (db.statusOf i) ((db.updateCallbacks p f).statusOf i) := by
  rw [statusOf_updateCallbacks db p f hf]
  unfold Db.statusOf
  cases db.find i with
  | none => exact LegalMove.refl none
  | some c =>
    simp only [Option.map_some, legalMove_some]
    split
    · next hc =>
      rw [hst]
      exact Or.inr (hlegal c hc)
    · exact Or.inl rfl

theorem statusOf_applyPromote (db : Db) (id leadId : Int) (userId : Option Int) (i : Int) :
    LegalMove (db.statusOf i) ((applyPromote db id leadId userId).statusOf i) := by
  unfold applyPromote
  split
  · rw [statusOf_setLead]
    refine legalMove_updateCallbacks db _ _ ?_ .live ?_ ?_ i
    · exact fun _ => rfl
    · exact fun _ => rfl
    · intro c hc
      rw [hc.2]
      decide
  · exact LegalMove.refl _

theorem statusOf_bulkCancel (db : Db) (tenantId : Int) (ids : List Int) (i : Int) :
    LegalMove (db.statusOf i) ((bulkCancel db tenantId ids).statusOf i) := by
  unfold bulkCancel
  refine legalMove_updateCallbacks db _ _ ?_ .dead ?_ ?_ i
  · exact fun _ => rfl
  · exact fun _ => rfl
  · intro c hc
    rcases hc.2.2 with hopen | hopen
    · rw [hopen]
      decide
    · rw [hopen]
      decide

theorem statusOf_applyCancel (db : Db) (tenantId id leadId i : Int) :
    (applyCancel db tenantId id leadId).statusOf i = (db.setStatus id .dead).statusOf i := by
  unfold applyCancel
  simp only
  split
  · rw [statusOf_setLeadStatus]
  · rfl

theorem apply_onTable_iff (db : Db) (w : Write) :
    (∀ i, LegalMove (db.statusOf i) ((w.apply db).statusOf i)) ↔ w.Timely db := by
  have hwrite : ∀ (id : Int) (f : Callback → Callback) (st : CallbackStatus),
      (∀ c, (f c).id = c.id) → (∀ c, (f c).status = st) → ∀ bad : CallbackStatus → Prop,
      (∀ old, (st = old ∨ (old, st) ∈ legalTransitions) ↔ ¬ bad old) →
      ((∀ i, LegalMove (db.statusOf i) ((db.updateCallbacks (fun c => c.id = id) f).statusOf i)) ↔
        ∀ old, bad old → db.statusOf id ≠ some old) := by
    intro id f st hf hst bad hbad
    rw [write_onTable_iff db id f hf hst]
    constructor
    · intro h old hold he
      exact (hbad old).1 (h old he) hold
    · intro h old he
      exact (hbad old).2 fun hold => h old hold he
  cases w with
  | create tenantId leadId userId callbackAt leadStatus =>
    exact iff_of_true (statusOf_applyCreate db _ _ _ _ _) trivial
  | promote id leadId userId => exact iff_of_true (statusOf_applyPromote db _ _ _) trivial
  | snooze id callbackAt =>
    refine (hwrite id _ .pending ?_ ?_ (fun old => old = .done ∨ old = .dead) ?_).trans ?_
    · exact fun _ => rfl
    · exact fun _ => rfl
    · intro old
      cases old <;> decide
    · simp [Write.Timely]
  | reschedule id leadId callbackAt =>
    refine (hwrite id _ .pending ?_ ?_ (fun old => old = .done ∨ old = .dead) ?_).trans ?_
    · exact fun _ => rfl
    · exact fun _ => rfl
    · intro old
      cases old <;> decide
    · simp [Write.Timely]
  | cancel tenantId id leadId =>
    simp only [Write.apply, statusOf_applyCancel]
    refine (hwrite id _ .dead ?_ ?_ (fun old => old = .done) ?_).trans ?_
    · exact fun _ => rfl
    · exact fun _ => rfl
    · intro old
      cases old <;> decide
    · simp [Write.Timely]
  | terminate id leadId =>
    refine (hwrite id _ .done ?_ ?_ (fun old => old = .pending ∨ old = .dead) ?_).trans ?_
    · exact fun _ => rfl
    · exact fun _ => rfl
    · intro old
      cases old <;> decide
    · simp [Write.Timely]

theorem onTable_iff (s : Overlap) (a : LifecycleAction) : OnTable s a ↔ WritesTimely s a := by
  cases a with
  | write i =>
    unfold OnTable
    simp only [lifecycleStep, WritesTimely]
    cases s.inFlight[i]? with
    | none => exact iff_of_true (fun _ => LegalMove.refl _) (fun w hw => by cases hw)
    | some w =>
      simp only [Option.mem_def, Option.some.injEq, forall_eq']
      exact apply_onTable_iff s.db w
  | bulkCancel tenantId ids =>
    exact iff_of_true (statusOf_bulkCancel s.db tenantId ids) trivial
  | createRead actor body now => exact iff_of_true (fun _ => LegalMove.refl _) trivial
  | snoozeRead actor id callbackAt now => exact iff_of_true (fun _ => LegalMove.refl _) trivial
  | cancelRead actor id => exact iff_of_true (fun _ => LegalMove.refl _) trivial
  | noAnswerRead tenantId id policy => exact iff_of_true (fun _ => LegalMove.refl _) trivial
  | dueRead tenantId id dueBy => exact iff_of_true (fun _ => LegalMove.refl _) trivial
  | fail i => exact iff_of_true (fun _ => LegalMove.refl _) trivial

theorem LegalMove.terminal {st : CallbackStatus} {new : Option CallbackStatus}
    (h : LegalMove (some st) new) (hst : st.Terminal) : new = some st := by
  rcases h with h | ⟨new', rfl, hguard⟩
  · exact h
  · have hterminal : st = .done ∨ st = .dead := hst
    unfold guardTransition at hguard
    rw [if_pos hterminal] at hguard
    cases hguard

theorem terminal_stays {s : Overlap} {l : List LifecycleAction} {id : Int} {st : CallbackStatus}
    (hl : EachStep lifecycleStep OnTable s l) (hs : s.db.statusOf id = some st) (hst : st.Terminal) :
    Always lifecycleStep (fun s => s.db.statusOf id = some st) s l := by
  apply always_of_eachStep (I := fun s => s.db.statusOf id = some st) _ hs hl
  intro s a hs ha
  have hmove := ha id
  rw [hs] at hmove
  exact hmove.terminal hst

theorem statuses_follow_table_iff (s : Overlap) (l : List LifecycleAction) :
    (EachStep lifecycleStep OnTable s l ∧
        ∀ id st, s.db.statusOf id = some st → st.Terminal →
          Always lifecycleStep (fun s => s.db.statusOf id = some st) s l) ↔
      EachStep lifecycleStep WritesTimely s l := by
  have hiff : EachStep lifecycleStep OnTable s l ↔ EachStep lifecycleStep WritesTimely s l :=
    eachStep_congr (I := fun _ => True) (fun _ _ _ _ => trivial) (fun s a _ => onTable_iff s a) l
      trivial
  constructor
  · intro h
    exact hiff.1 h.1
  · intro h
    exact ⟨hiff.2 h, fun id st hs hst => terminal_stays (hiff.2 h) hs hst⟩

/-- The callback is cancelled between the read and the write of a snooze. -/
def snoozeAcrossCancel : List LifecycleAction :=
  [.createRead supervisor ⟨42, 3600000, false, none⟩ 0, .write 0,
    .snoozeRead supervisor 1 7200000 60000, .cancelRead supervisor 1, .write 1, .write 0]

theorem snooze_resurrects_cancelled :
    ¬ ∀ s l, EachStep lifecycleStep OnTable s l := by
  intro h
  obtain ⟨-, -, -, -, -, hsnooze, -⟩ := h ⟨oneLead, []⟩ snoozeAcrossCancel
  have hmove : LegalMove (some .dead) (some .pending) := hsnooze 1
  exact absurd (legalMove_some.1 hmove) (by decide)

end Callbacks

end Vici2
