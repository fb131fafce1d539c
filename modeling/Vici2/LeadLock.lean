import Vici2.LeadPatch

/-! What the version of a lead promises over all runs: the versions that answers name, the row
against its commits one after the other, and the owner. -/

namespace Vici2

namespace Leads

namespace LeadDesk

variable {ι J : Type}

structure ReadAt (v : Nat) (pre : List (Commit ι J)) (a : Attempt J) : Prop where
  seen : a.seen ≤ pre.length
  version : a.before.version = v + patches (pre.take a.seen)
  expected : ∀ expected ∈ expectedVersion a.req, (a.before.version : Int) = expected

theorem ReadAt.patches_eq {v : Nat} {pre : List (Commit ι J)} {a : Attempt J}
    (h : ReadAt v pre a) : v + patches pre = a.before.version + patches (pre.drop a.seen) := by
  rw [h.version, Nat.add_assoc, ← patches_append, List.take_append_drop]

structure Inv (v : Nat) (s : LeadDesk ι J) : Prop where
  version : s.lead.version = v + patches s.trail
  range : s.lead.version ≤ max v maxVersion
  checked : ∀ i a, s.calls i = .checked a → ReadAt v s.trail a
  answered : ∀ i req etag lead, s.calls i = .answered req (.ok etag lead) →
    ∃ a pre now changes post, s.trail = pre ++ .patch i a now changes :: post ∧
      etag = v + patches pre + 1 ∧ ReadAt v pre a ∧ a.req = req
  committed : ∀ i a pre now changes post, s.trail = pre ++ .patch i a now changes :: post →
    ReadAt v pre a ∧ ∃ lead, s.calls i = .answered a.req (.ok (v + patches pre + 1) lead)

theorem ReadAt.append {v : Nat} {pre : List (Commit ι J)} {a : Attempt J} (h : ReadAt v pre a)
    (c : Commit ι J) : ReadAt v (pre ++ [c]) a where
  seen := by
    have hseen := h.seen
    rw [List.length_append]
    omega
  version := by rw [List.take_append_of_le_length h.seen, h.version]
  expected := h.expected

theorem inv_start (lead : LeadRow J) : (start lead : LeadDesk ι J).Inv lead.version where
  version := rfl
  range := le_max_left ..
  checked := fun _ _ h => nomatch h
  answered := fun _ _ _ _ h => nomatch h
  committed := by
    intro i a pre now changes post h
    cases pre <;> cases h

theorem split_append_cases {trail pre post : List (Commit ι J)} {c d : Commit ι J}
    (h : trail ++ [c] = pre ++ d :: post) :
    (trail = pre ∧ c = d) ∨ ∃ post', trail = pre ++ d :: post' := by
  rcases List.eq_nil_or_concat post with rfl | ⟨post', x, rfl⟩
  · obtain ⟨hpre, hlast⟩ := List.append_inj' h rfl
    exact Or.inl ⟨hpre, (List.cons.inj hlast).1⟩
  · rw [List.concat_eq_append, ← List.cons_append, ← List.append_assoc] at h
    exact Or.inr ⟨post', (List.append_inj' h rfl).1⟩

theorem split_append {trail pre post : List (Commit ι J)} {d : Commit ι J}
    (h : trail = pre ++ d :: post) (c : Commit ι J) :
    trail ++ [c] = pre ++ d :: (post ++ [c]) := by
  rw [h, List.append_assoc, List.cons_append]

theorem Inv.put {v : Nat} {s : LeadDesk ι J} (h : s.Inv v) (w : OtherWrite J) :
    (s.put w).Inv v where
  version := by
    rw [LeadDesk.put, patches_append, patches_other]
    exact h.version
  range := h.range
  checked := fun j a hj => (h.checked j a hj).append _
  answered := by
    intro j req etag lead hj
    obtain ⟨a, pre, now, changes, post, htrail, hrest⟩ := h.answered j req etag lead hj
    exact ⟨a, pre, now, changes, _, split_append htrail _, hrest⟩
  committed := by
    intro j a pre now changes post htrail
    rcases split_append_cases htrail with ⟨-, heq⟩ | ⟨post', htrail⟩
    · cases heq
    · exact h.committed j a pre now changes post' htrail

variable [DecidableEq ι]

/-- A reply that commits nothing goes to a request whose transaction has not committed. -/
theorem Inv.answer {v : Nat} {s : LeadDesk ι J} (h : s.Inv v) {i : ι}
    (hopen : ∀ req r, s.calls i ≠ .answered req r) {ph : Phase J}
    (hok : ∀ req etag lead, ph ≠ .answered req (.ok etag lead))
    (hchecked : ∀ a, ph = .checked a → ReadAt v s.trail a) :
    Inv v { s with calls := Function.update s.calls i ph } where
  version := h.version
  range := h.range
  checked := by
    intro j a hj
    rcases update_cases (fun p => p = Phase.checked a) hj with ⟨-, hph⟩ | ⟨-, hj⟩
    · exact hchecked a hph
    · exact h.checked j a hj
  answered := by
    intro j req etag lead hj
    rcases update_cases (fun p => p = Phase.answered req (.ok etag lead)) hj with ⟨-, hph⟩ | ⟨-, hj⟩
    · exact absurd hph (hok req etag lead)
    · exact h.answered j req etag lead hj
  committed := by
    intro j a pre now changes post htrail
    obtain ⟨hread, lead, hj⟩ := h.committed j a pre now changes post htrail
    have hij : j ≠ i := fun heq => hopen _ _ (heq ▸ hj)
    exact ⟨hread, lead, (Function.update_of_ne hij ..).trans hj⟩

theorem Inv.commit {v : Nat} {s : LeadDesk ι J} (h : s.Inv v) {i : ι} {a : Attempt J}
    (hcall : s.calls i = .checked a) (hmax : s.lead.version < maxVersion) (now : Nat)
    (changes : Changes J) {lead : LeadRow J} (hlead : lead.version = s.lead.version + 1) :
    Inv v
      { lead := lead
        calls := Function.update s.calls i (.answered a.req (.ok (s.lead.version + 1) lead))
        trail := s.trail ++ [.patch i a now changes] } where
  version := by
    have hversion := h.version
    rw [patches_append, patches_singleton]
    dsimp only
    omega
  range := by
    dsimp only
    omega
  checked := by
    intro j b hj
    rcases update_cases (fun p => p = Phase.checked b) hj with ⟨-, hph⟩ | ⟨-, hj⟩
    · cases hph
    · exact (h.checked j b hj).append _
  answered := by
    intro j req etag l hj
    rcases update_cases (fun p => p = Phase.answered req (.ok etag l)) hj with ⟨rfl, hph⟩ | ⟨-, hj⟩
    · have hversion := h.version
      obtain ⟨hreq, hreply⟩ := Phase.answered.inj hph
      obtain ⟨hetag, -⟩ := PatchReply.ok.inj hreply
      exact ⟨a, s.trail, now, changes, [], rfl, by omega, h.checked j a hcall, hreq⟩
    · obtain ⟨b, pre, now', changes', post, htrail, hrest⟩ := h.answered j req etag l hj
      exact ⟨b, pre, now', changes', _, split_append htrail _, hrest⟩
  committed := by
    intro j b pre now' changes' post htrail
    rcases split_append_cases htrail with ⟨hpre, heq⟩ | ⟨post', htrail⟩
    · obtain ⟨rfl, rfl, -, -⟩ := Commit.patch.inj heq
      subst hpre
      rw [← h.version]
      exact ⟨h.checked i a hcall, lead, Function.update_self ..⟩
    · obtain ⟨hread, l, hj⟩ := h.committed j b pre now' changes' post' htrail
      have hij : j ≠ i := by
        rintro rfl
        rw [hcall] at hj
        cases hj
      exact ⟨hread, l, (Function.update_of_ne hij ..).trans hj⟩

variable [DecidableEq J] {env : Outside J}

inductive Moves (env : Outside J) (e : LeadEvent ι J) (s : LeadDesk ι J) : LeadDesk ι J → Prop
  | stay : Moves env e s s
  | refuse (i : ι) (req : PatchRequest J) (r : PatchReply J)
      (hopen : ∀ req r, s.calls i ≠ .answered req r) (hr : ∀ etag lead, r ≠ .ok etag lead) :
      Moves env e s (s.answer i req r)
  | check (i : ι) (req : PatchRequest J) (hidle : s.calls i = .idle)
      (hlive : s.lead.deletedAt = none)
      (hversion : ∀ v ∈ expectedVersion req, (s.lead.version : Int) = v) :
      Moves env e s (s.check i req)
  | commit (i : ι) (a : Attempt J) (now : Nat) (changes : Changes J)
      (hcall : s.calls i = .checked a) (hmax : s.lead.version < maxVersion)
      (hdiff : diffLeadChanges a.before (s.lead.update env (mappedData a.req.body a.before now))
        ((mappedData a.req.body a.before now).map Prod.fst) = some changes) :
      Moves env e s
        { lead := s.lead.update env (mappedData a.req.body a.before now)
          calls := Function.update s.calls i (.answered a.req (.ok (s.lead.version + 1)
            (s.lead.update env (mappedData a.req.body a.before now))))
          trail := s.trail ++ [.patch i a now changes] }
  | put (w : OtherWrite J) (hw : e.otherWrite s.lead = some w) : Moves env e s (s.put w)

theorem moves_read {e : LeadEvent ι J} {s : LeadDesk ι J} {i : ι} (hidle : s.calls i = .idle)
    (req : PatchRequest J) : Moves env e s (read env s i req) := by
  have hopen : ∀ req r, s.calls i ≠ .answered req r := by simp [hidle]
  unfold read
  split
  · exact .refuse i _ _ hopen (by simp)
  · split
    · exact .refuse i _ _ hopen (by simp)
    · next hlive =>
      have hlive : s.lead.deletedAt = none := not_not.1 hlive
      split
      · next hnone => exact .check i req hidle hlive (by simp [hnone])
      · next expected hsome =>
        split
        · exact .refuse i _ _ hopen (by simp)
        · next hversion => exact .check i req hidle hlive (by simpa [hsome] using hversion)

theorem moves_write {e : LeadEvent ι J} {s : LeadDesk ι J} {i : ι} {a : Attempt J}
    (hcall : s.calls i = .checked a) (now : Nat) : Moves env e s (write env s i a now) := by
  have hopen : ∀ req r, s.calls i ≠ .answered req r := by simp [hcall]
  unfold write
  dsimp only
  split
  · exact .refuse i _ _ hopen (by simp)
  · next hmax =>
    split
    · exact .refuse i _ _ hopen (by simp)
    · next changes hdiff => exact .commit i a now changes hcall (not_lt.1 hmax) hdiff

theorem moves_step (s : LeadDesk ι J) (e : LeadEvent ι J) : Moves env e s (step env s e) := by
  cases e with
  | read i req =>
    simp only [step]
    split
    · next hidle => exact moves_read hidle req
    · exact .stay
  | write i now =>
    simp only [step]
    split
    · next a hcall => exact moves_write hcall now
    · exact .stay
  | fail i =>
    simp only [step]
    split
    · next a hcall => exact .refuse i _ _ (by simp [hcall]) (by simp)
    · exact .stay
  | delete now => exact .put _ rfl
  | other w => exact .put w rfl

theorem Inv.moves {v : Nat} {e : LeadEvent ι J} {s s' : LeadDesk ι J} (h : s.Inv v)
    (hm : Moves env e s s') : s'.Inv v := by
  cases hm with
  | stay => exact h
  | refuse i req r hopen hr =>
    exact h.answer hopen (fun req' etag lead heq => hr etag lead (Phase.answered.inj heq).2)
      fun a heq => by cases heq
  | check i req hidle hlive hversion =>
    refine h.answer (fun req' r heq => by rw [hidle] at heq; cases heq)
      (fun req' etag lead heq => by cases heq) fun a heq => ?_
    obtain rfl := Phase.checked.inj heq
    refine ⟨le_refl _, ?_, hversion⟩
    rw [List.take_length, h.version]
  | commit i a now changes hcall hmax hdiff => exact h.commit hcall hmax now changes rfl
  | put w hw => exact h.put w

theorem inv_run (env : Outside J) (lead : LeadRow J) (events : List (LeadEvent ι J)) :
    (events.foldl (step env) (start lead)).Inv lead.version := by
  have hrun : Always (step env) (Inv lead.version) (start lead : LeadDesk ι J) events :=
    always_of_step (fun s e (h : s.Inv lead.version) => h.moves (moves_step s e)) events
      (inv_start lead)
  exact hrun.last

omit [DecidableEq ι] [DecidableEq J] in
theorem patches_lt_or_lt {trail pre pre' post post' : List (Commit ι J)} {c c' : Commit ι J}
    (h : trail = pre ++ c :: post) (h' : trail = pre' ++ c' :: post') (hc : c.isPatch = true)
    (hc' : c'.isPatch = true) (hne : c ≠ c') : patches pre < patches pre' ∨
      patches pre' < patches pre := by
  have hlt : ∀ {l r : List (Commit ι J)} {d : Commit ι J}, d.isPatch = true →
      patches l < patches (l ++ d :: r) := by
    intro l r d hd
    rw [patches_append, patches, patches, List.countP_cons_of_pos hd]
    omega
  rcases List.append_eq_append_iff.1 (h.symm.trans h') with ⟨mid, hpre, hpost⟩ | ⟨mid, hpre, hpost⟩
  · cases mid with
    | nil => exact absurd (List.cons.inj hpost).1 hne
    | cons d mid =>
      obtain ⟨rfl, -⟩ := List.cons.inj hpost
      exact Or.inl (by rw [hpre]; exact hlt hc)
  · cases mid with
    | nil => exact absurd (List.cons.inj hpost).1.symm hne
    | cons d mid =>
      obtain ⟨rfl, -⟩ := List.cons.inj hpost
      exact Or.inr (by rw [hpre]; exact hlt hc')

/-- The versions that answers name are those of their patches in the order of the commits, and
a request with an `If-Match` has been passed by another exactly where its answer does not name
the version behind the one it asked for. -/
theorem etags_of_run (env : Outside J) (lead : LeadRow J) (events : List (LeadEvent ι J)) :
    let s := events.foldl (step env) (start lead)
    s.lead.version = lead.version + patches s.trail ∧
      s.lead.version ≤ max lead.version maxVersion ∧
      (∀ i req etag l, s.calls i = .answered req (.ok etag l) →
        ∃ a pre now changes post, s.trail = pre ++ .patch i a now changes :: post ∧ a.req = req ∧
          etag = lead.version + patches pre + 1 ∧
          ∀ v, req.ifMatch = some (etagText v) →
            (etag = v + 1 ↔ patches (pre.drop a.seen) = 0)) ∧
      ∀ i j req req' etag etag' l l', s.calls i = .answered req (.ok etag l) →
        s.calls j = .answered req' (.ok etag' l') → i ≠ j → etag ≠ etag' := by
  intro s
  have hinv : s.Inv lead.version := inv_run env lead events
  refine ⟨hinv.version, hinv.range, fun i req etag l hi => ?_, ?_⟩
  · obtain ⟨a, pre, now, changes, post, htrail, hetag, hread, hreq⟩ := hinv.answered i req etag l hi
    refine ⟨a, pre, now, changes, post, htrail, hreq, hetag, fun v hmatch => ?_⟩
    have hexpected : expectedVersion a.req = some (v : Int) := by
      rw [expectedVersion, hreq, hmatch, parseVersion_etagText]
      rfl
    have hbefore := hread.expected v hexpected
    have hversion := hread.version
    have hsplit := hread.patches_eq
    omega
  · intro i j req req' etag etag' l l' hi hj hij
    obtain ⟨a, pre, now, changes, post, htrail, hetag, -⟩ := hinv.answered i req etag l hi
    obtain ⟨a', pre', now', changes', post', htrail', hetag', -⟩ :=
      hinv.answered j req' etag' l' hj
    have hne : (Commit.patch i a now changes : Commit ι J) ≠ .patch j a' now' changes' := by
      intro heq
      exact hij (Commit.patch.inj heq).1
    rcases patches_lt_or_lt htrail htrail' rfl rfl hne with hlt | hlt <;> omega

end LeadDesk

section Replay

variable {ι J : Type} (env : Outside J)

def LeadRow.after (lead : LeadRow J) : Commit ι J → LeadRow J
  | .patch _ a now _ => lead.update env (mappedData a.req.body lead now)
  | .other w => lead.written w

/-- The commits one after the other, each patch on the row that the one before has left. -/
def replay (lead : LeadRow J) (trail : List (Commit ι J)) : LeadRow J :=
  trail.foldl (LeadRow.after env) lead

/-- No patch of the trail was committed between the read and the commit of another. -/
def Unpassed (trail : List (Commit ι J)) : Prop :=
  ∀ pre i a now changes post, trail = pre ++ .patch i a now changes :: post →
    patches (pre.drop a.seen) = 0

variable {env}

theorem replay_append (lead : LeadRow J) (trail : List (Commit ι J)) (c : Commit ι J) :
    replay env lead (trail ++ [c]) = (replay env lead trail).after env c := by
  rw [replay, List.foldl_append]
  rfl

structure LeadRow.Alike (lead lead' : LeadRow J) : Prop where
  version : lead.version = lead'.version
  deletedAt : lead.deletedAt = lead'.deletedAt
  column : ∀ k, k ≠ .customData → lead.column k = lead'.column k

theorem LeadRow.Alike.refl (lead : LeadRow J) : lead.Alike lead := ⟨rfl, rfl, fun _ _ => rfl⟩

theorem assigned_eq {k : Column} (hk : k ≠ .customData) (patch : LeadPatch J)
    (before before' : LeadRow J) (now : Nat) :
    assigned patch before now k = assigned patch before' now k := by
  have hmapped : mapped before k = mapped before' k := by
    funext v
    unfold mapped
    split
    · rfl
    · exact absurd rfl hk
    · rfl
  unfold assigned
  rw [hmapped]

theorem LeadRow.Alike.update {lead lead' : LeadRow J} (h : lead.Alike lead')
    (patch : LeadPatch J) (before before' : LeadRow J) (now : Nat) :
    (lead.update env (mappedData patch before now)).Alike
      (lead'.update env (mappedData patch before' now)) where
  version := congrArg (· + 1) h.version
  deletedAt := h.deletedAt
  column := by
    intro k hk
    rw [update_column, update_column, assigned_eq hk patch before before', h.column k hk]

theorem LeadRow.Alike.written {lead lead' : LeadRow J} (h : lead.Alike lead')
    (w : OtherWrite J) : (lead.written w).Alike (lead'.written w) where
  version := h.version
  deletedAt := rfl
  column := by
    intro k hk
    simp [LeadRow.written, Function.update_of_ne hk]

theorem get_customData_update (henv : ∀ o key, (env.column o).lookup key = o.lookup key)
    (lead : LeadRow J) (patch : LeadPatch J) (before : LeadRow J) (now : Nat) (key : String) :
    ((lead.update env (mappedData patch before now)).column .customData).get key =
      match patch.fields .customData with
      | none => (lead.column .customData).get key
      | some v => (v.get key).or ((before.column .customData).get key) := by
  rw [update_column, assigned, if_neg (by decide)]
  cases patch.fields .customData with
  | none => rfl
  | some v => exact (henv _ key).trans (lookup_spread _ _ key)

theorem Unpassed.of_append {trail : List (Commit ι J)} {c : Commit ι J}
    (h : Unpassed (trail ++ [c])) : Unpassed trail :=
  fun pre i a now changes _ htrail =>
    h pre i a now changes _ (LeadDesk.split_append htrail c)

theorem Unpassed.last {trail : List (Commit ι J)} {i : ι} {a : Attempt J} {now : Nat}
    {changes : Changes J} (h : Unpassed (trail ++ [.patch i a now changes])) :
    patches (trail.drop a.seen) = 0 :=
  h trail i a now changes [] rfl

end Replay

namespace LeadDesk

variable {ι J : Type} [DecidableEq ι] [DecidableEq J] {env : Outside J}

/-- The desk beside the replay of its trail. -/
structure Follows (env : Outside J) (lead : LeadRow J) (s : LeadDesk ι J) : Prop where
  alike : s.lead.Alike (replay env lead s.trail)
  checked : ∀ i a, s.calls i = .checked a → a.seen ≤ s.trail.length ∧
    (patches (s.trail.drop a.seen) = 0 → a.before.column .customData = s.lead.column .customData)
  customData : Unpassed s.trail → ∀ key,
    (s.lead.column .customData).get key =
      ((replay env lead s.trail).column .customData).get key

omit [DecidableEq ι] [DecidableEq J] in
theorem follows_start (lead : LeadRow J) : Follows env lead (start lead : LeadDesk ι J) where
  alike := LeadRow.Alike.refl lead
  checked := fun _ _ h => nomatch h
  customData := fun _ _ => rfl

theorem Follows.moves {lead : LeadRow J} {e : LeadEvent ι J} {s s' : LeadDesk ι J}
    (henv : ∀ o key, (env.column o).lookup key = o.lookup key) (h : Follows env lead s)
    (hm : Moves env e s s') : Follows env lead s' := by
  have hdrop : ∀ {l : List (Commit ι J)} {c : Commit ι J} {n : Nat}, n ≤ l.length →
      patches ((l ++ [c]).drop n) = patches (l.drop n) + patches [c] := by
    intro l c n hn
    rw [List.drop_append_of_le_length hn, patches_append]
  cases hm with
  | stay => exact h
  | refuse i req r hopen hr =>
    refine ⟨h.alike, fun j a hj => ?_, h.customData⟩
    rcases update_cases (fun p => p = Phase.checked a) hj with ⟨-, hph⟩ | ⟨-, hj⟩
    · cases hph
    · exact h.checked j a hj
  | check i req hidle hlive hversion =>
    refine ⟨h.alike, fun j a hj => ?_, h.customData⟩
    rcases update_cases (fun p => p = Phase.checked a) hj with ⟨-, hph⟩ | ⟨-, hj⟩
    · obtain rfl := Phase.checked.inj hph
      exact ⟨le_refl _, fun _ => rfl⟩
    · exact h.checked j a hj
  | commit i a now changes hcall hmax hdiff =>
    refine ⟨?_, fun j b hj => ?_, fun hunpassed key => ?_⟩
    · rw [replay_append]
      exact h.alike.update a.req.body a.before _ now
    · rcases update_cases (fun p => p = Phase.checked b) hj with ⟨-, hph⟩ | ⟨-, hj⟩
      · cases hph
      · obtain ⟨hseen, -⟩ := h.checked j b hj
        refine ⟨by rw [List.length_append]; omega, fun hzero => ?_⟩
        rw [hdrop hseen, patches_singleton] at hzero
        omega
    · have hbefore := (h.checked i a hcall).2 hunpassed.last
      have hkey := h.customData hunpassed.of_append key
      rw [replay_append, LeadRow.after, get_customData_update henv, get_customData_update henv,
        hbefore, hkey]
  | put w hw =>
    refine ⟨?_, fun j a hj => ?_, fun hunpassed key => ?_⟩
    · rw [put, replay_append]
      exact h.alike.written w
    · obtain ⟨hseen, hsame⟩ := h.checked j a hj
      refine ⟨by rw [put, List.length_append]; omega, fun hzero => ?_⟩
      rw [put, hdrop hseen, patches_other] at hzero
      simpa [put, LeadRow.written] using hsame hzero
    · have hkey := h.customData hunpassed.of_append key
      rw [put, replay_append, LeadRow.after]
      simpa [LeadRow.written] using hkey

theorem follows_run (henv : ∀ o key, (env.column o).lookup key = o.lookup key)
    (lead : LeadRow J) (events : List (LeadEvent ι J)) :
    Follows env lead (events.foldl (step env) (start lead)) := by
  have hrun : Always (step env) (Follows env lead) (start lead : LeadDesk ι J) events :=
    always_of_step (fun s e (h : Follows env lead s) => h.moves henv (moves_step s e)) events
      (follows_start lead)
  exact hrun.last

/-- The row is the one of the commits taken one after the other, its custom data left out; and
with them where every answer names the version that its request asked for and one. -/
theorem serial_of_etags (env : Outside J)
    (henv : ∀ o key, (env.column o).lookup key = o.lookup key) (lead : LeadRow J)
    (events : List (LeadEvent ι J)) :
    let s := events.foldl (step env) (start lead)
    let r := replay env lead s.trail
    s.lead.Alike r ∧
      ((∀ i req etag l, s.calls i = .answered req (.ok etag l) →
          ∃ expected ∈ expectedVersion req, (etag : Int) = expected + 1) →
        ∀ key, (s.lead.column .customData).get key = (r.column .customData).get key) := by
  intro s r
  have hinv : s.Inv lead.version := inv_run env lead events
  have hfollows : Follows env lead s := follows_run henv lead events
  refine ⟨hfollows.alike, fun hetags => hfollows.customData ?_⟩
  intro pre i a now changes post htrail
  obtain ⟨hread, l, hcall⟩ := hinv.committed i a pre now changes post htrail
  obtain ⟨expected, hexpected, hetag⟩ := hetags i a.req _ l hcall
  have hbefore := hread.expected expected hexpected
  have hsplit := hread.patches_eq
  omega

def sampleOutside : Outside Nat := ⟨fun raw _ => some (raw, true), id⟩

def sampleLead : LeadRow Nat where
  version := 1
  deletedAt := none
  column := fun k => if k = .customData then .object [("x", 0)] else .null

def samplePatch (version key : Char) : PatchRequest Nat where
  ifMatch := some ['"', version, '"']
  body :=
    { version := none
      fields := fun k => if k = .customData then some (.object [(key.toString, 7)]) else none
      parsed := by
        intro k
        cases k <;> rfl }

/-- The second request has read before the first one commits. -/
def crossed : List (LeadEvent Bool Nat) :=
  [.read false (samplePatch '1' 'a'), .read true (samplePatch '1' 'b'), .write false 5,
    .write true 6]

example : let s := crossed.foldl (step sampleOutside) (start sampleLead)
    (s.lead.version, (s.lead.column .customData).get "a", (s.lead.column .customData).get "b",
      ((replay sampleOutside sampleLead s.trail).column .customData).get "a") =
        (3, none, some 7, some 7) := by
  decide

def inTurn : List (LeadEvent Bool Nat) :=
  [.read false (samplePatch '1' 'a'), .write false 5, .read true (samplePatch '2' 'b'),
    .write true 6]

theorem inTurn_serial : let s := inTurn.foldl (step sampleOutside) (start sampleLead)
    (s.lead.column .customData).get "a" =
      ((replay sampleOutside sampleLead s.trail).column .customData).get "a" := by
  refine (serial_of_etags sampleOutside (fun _ _ => rfl) sampleLead inTurn).2 ?_ "a"
  intro i req etag l hi
  cases i with
  | false =>
    have hok : .answered (samplePatch '1' 'a') (.ok 2 _) = Phase.answered req (.ok etag l) := hi
    obtain ⟨rfl, hreply⟩ := Phase.answered.inj hok
    obtain ⟨rfl, -⟩ := PatchReply.ok.inj hreply
    exact ⟨1, by decide, rfl⟩
  | true =>
    have hok : .answered (samplePatch '2' 'b') (.ok 3 _) = Phase.answered req (.ok etag l) := hi
    obtain ⟨rfl, hreply⟩ := Phase.answered.inj hok
    obtain ⟨rfl, -⟩ := PatchReply.ok.inj hreply
    exact ⟨2, by decide, rfl⟩

/-- No request has assigned an owner, and none with an owner to lose has been answered. -/
structure KeepsOwner (owner : Value J) (s : LeadDesk ι J) : Prop where
  lead : s.lead.column .ownerUserId = owner
  checked : ∀ i a, s.calls i = .checked a → a.before.column .ownerUserId = owner
  answered : ∀ i req etag l, s.calls i = .answered req (.ok etag l) →
    req.body.fields .ownerUserId = none ∨ req.body.fields .ownerUserId = some .null ∧ owner = .null

omit [DecidableEq ι] [DecidableEq J] in
theorem owner_of_parsed {patch : LeadPatch J} {v : Value J}
    (h : patch.fields .ownerUserId = some v) : v = .null ∨ ∃ n, v = .bigint n := by
  have hparsed : accepts .ownerUserId v = true := by simpa [h] using patch.parsed .ownerUserId
  cases v with
  | null => exact Or.inl rfl
  | bigint n => exact Or.inr ⟨n, rfl⟩
  | _ => simp [accepts] at hparsed

theorem owner_of_diff {owner : Value J} (howner : owner = .null ∨ ∃ n, owner = .bigint n)
    {lead before : LeadRow J} {patch : LeadPatch J} {now : Nat} {changes : Changes J}
    (hlead : lead.column .ownerUserId = owner) (hbefore : before.column .ownerUserId = owner)
    (hdiff : diffLeadChanges before (lead.update env (mappedData patch before now))
      ((mappedData patch before now).map Prod.fst) = some changes) :
    (lead.update env (mappedData patch before now)).column .ownerUserId = owner ∧
      (patch.fields .ownerUserId = none ∨
        patch.fields .ownerUserId = some .null ∧ owner = .null) := by
  have hcolumn := @update_column J env lead patch before now .ownerUserId
  rw [assigned, if_neg (by decide)] at hcolumn
  cases hfield : patch.fields .ownerUserId with
  | none =>
    rw [hfield] at hcolumn
    exact ⟨hcolumn.trans hlead, Or.inl rfl⟩
  | some v =>
    have hkey : .ownerUserId ∈ (mappedData patch before now).map Prod.fst := by
      have hlookup : (mappedData patch before now).lookup .ownerUserId = some v := by
        rw [lookup_mappedData, assigned, if_neg (by decide), hfield]
        rfl
      obtain ⟨l, r, hsplit, -⟩ := List.lookup_eq_some_iff.1 hlookup
      rw [hsplit]
      simp
    rw [hfield] at hcolumn
    have hnone : owner = .null := by
      rcases howner with hnull | ⟨n, hn⟩
      · exact hnull
      · exact absurd (hbefore.trans hn) (not_bigint_of_diff hdiff hkey n).1
    rcases owner_of_parsed hfield with rfl | ⟨n, rfl⟩
    · exact ⟨hcolumn.trans hnone.symm, Or.inr ⟨rfl, hnone⟩⟩
    · exact absurd hcolumn (not_bigint_of_diff hdiff hkey n).2

theorem KeepsOwner.moves {owner : Value J} (howner : owner = .null ∨ ∃ n, owner = .bigint n)
    {e : LeadEvent ι J} {s s' : LeadDesk ι J} (h : KeepsOwner owner s)
    (he : ∀ w, e = .other w → w.column .ownerUserId = owner) (hm : Moves env e s s') :
    KeepsOwner owner s' := by
  cases hm with
  | stay => exact h
  | refuse i req r hopen hr =>
    refine ⟨h.lead, fun j a hj => ?_, fun j req' etag l hj => ?_⟩
    · rcases update_cases (fun p => p = Phase.checked a) hj with ⟨-, hph⟩ | ⟨-, hj⟩
      · cases hph
      · exact h.checked j a hj
    · rcases update_cases (fun p => p = Phase.answered req' (.ok etag l)) hj with ⟨-, hph⟩ | ⟨-, hj⟩
      · exact absurd (Phase.answered.inj hph).2 (hr etag l)
      · exact h.answered j req' etag l hj
  | check i req hidle hlive hversion =>
    refine ⟨h.lead, fun j a hj => ?_, fun j req' etag l hj => ?_⟩
    · rcases update_cases (fun p => p = Phase.checked a) hj with ⟨-, hph⟩ | ⟨-, hj⟩
      · obtain rfl := Phase.checked.inj hph
        exact h.lead
      · exact h.checked j a hj
    · rcases update_cases (fun p => p = Phase.answered req' (.ok etag l)) hj with ⟨-, hph⟩ | ⟨-, hj⟩
      · cases hph
      · exact h.answered j req' etag l hj
  | commit i a now changes hcall hmax hdiff =>
    obtain ⟨hlead, hfield⟩ := owner_of_diff howner h.lead (h.checked i a hcall) hdiff
    refine ⟨hlead, fun j b hj => ?_, fun j req etag l hj => ?_⟩
    · rcases update_cases (fun p => p = Phase.checked b) hj with ⟨-, hph⟩ | ⟨-, hj⟩
      · cases hph
      · exact h.checked j b hj
    · rcases update_cases (fun p => p = Phase.answered req (.ok etag l)) hj with ⟨-, hph⟩ | ⟨-, hj⟩
      · obtain rfl := (Phase.answered.inj hph).1
        exact hfield
      · exact h.answered j req etag l hj
  | put w hw =>
    refine ⟨?_, h.checked, h.answered⟩
    have hkept : w.column .ownerUserId = owner := by
      cases e with
      | delete now =>
        obtain rfl := Option.some.inj hw
        simpa using h.lead
      | other w' =>
        obtain rfl := Option.some.inj hw
        exact he w' rfl
      | _ => cases hw
    simpa [put, LeadRow.written] using hkept

/-- The diff of the audit row throws on an owner, so that the route never gives a lead one and
never takes one from it. -/
theorem owner_of_run (env : Outside J) (lead : LeadRow J)
    (howner : lead.column .ownerUserId = .null ∨ ∃ n, lead.column .ownerUserId = .bigint n)
    (events : List (LeadEvent ι J))
    (hother : ∀ w, .other w ∈ events → w.column .ownerUserId = lead.column .ownerUserId) :
    let s := events.foldl (step env) (start lead)
    s.lead.column .ownerUserId = lead.column .ownerUserId ∧
      ∀ i req etag l, s.calls i = .answered req (.ok etag l) →
        req.body.fields .ownerUserId = none ∨
          req.body.fields .ownerUserId = some .null ∧ lead.column .ownerUserId = .null := by
  have hrun : Always (step env) (KeepsOwner (lead.column .ownerUserId))
      (start lead : LeadDesk ι J) events := by
    refine always_of_eachStep (fun s e h he => h.moves howner he (moves_step s e)) ?_ ?_
    · exact ⟨rfl, (fun _ _ h => nomatch h), (fun _ _ _ _ h => nomatch h)⟩
    · refine eachStep_of_forall_mem (fun e he w hw => hother w ?_) _
      rw [← hw]
      exact he
  exact ⟨hrun.last.lead, hrun.last.answered⟩

def ownerPatch : PatchRequest Nat where
  ifMatch := none
  body :=
    { version := none
      fields := fun k => if k = .ownerUserId then some (.bigint 4) else none
      parsed := by
        intro k
        cases k <;> rfl }

theorem ownerPatch_refused :
    let s := [LeadEvent.read () ownerPatch, .write () 5].foldl (step sampleOutside)
      (start sampleLead)
    s.lead.column .ownerUserId = .null ∧
      ∀ i req etag l, s.calls i = .answered req (.ok etag l) →
        req.body.fields .ownerUserId = none ∨
          req.body.fields .ownerUserId = some .null ∧ sampleLead.column .ownerUserId = .null :=
  owner_of_run sampleOutside sampleLead (Or.inl rfl) _ fun w hw => by simp at hw

end LeadDesk

end Leads

end Vici2
